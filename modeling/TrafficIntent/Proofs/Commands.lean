import TrafficIntent.CommandLine.Run
import TrafficIntent.Proofs.Conversion

namespace TrafficIntent.CommandLine

theorem exists_of_mapError {ε δ α : Type} {x : Except ε α} {g : ε → δ} {f : δ}
    (h : x.mapError g = .error f) : ∃ r, f = g r := by
  cases x with
  | error r => exact ⟨r, (Except.error.inj h).symm⟩
  | ok a => cases h

section

variable {w : World} {file : String}

/-- Reading complains of the file or of its text, never of what the document says. -/
theorem readIntent_error {f : Fault} (h : readIntent w file = .error f) :
    (∃ r, f = .io r) ∨ ∃ r, f = .text r := by
  unfold readIntent at h
  generalize (if file = inputName then w.input else w.file file) = content at h
  cases content with
  | error r => exact .inl ⟨r, (Except.error.inj h).symm⟩
  | ok text => exact .inr (exists_of_mapError h)

variable (s : Settings)

theorem fault_of_error {f : Fault} (h : readIntent w file = .error f) :
    (run w s (.validate file)).fault = some f := by
  unfold run validate
  dsimp only
  rw [h]
  rfl

theorem fault_of_ok {d : IntentDocument} (h : readIntent w file = .ok d) :
    (run w s (.validate file)).fault =
      if d.validate.isValid then none else some (.ofProblems d.validate.problems) := by
  unfold run validate
  dsimp only
  rw [h]
  rfl

variable (output : Option Format) (l7 noTimestamps : Bool)

theorem generate_of_error {f : Fault} (h : readIntent w file = .error f) :
    generate w s file output l7 noTimestamps = .error f := by
  unfold generate
  rw [h]
  rfl

theorem generate_of_invalid {d : IntentDocument} (h : readIntent w file = .ok d)
    (invalid : d.validate.isValid = false) :
    generate w s file output l7 noTimestamps = .error (.ofProblems d.validate.problems) := by
  unfold generate
  rw [h]
  show (if !d.validate.isValid then _ else _) = _
  rw [invalid]
  rfl

/-- Nothing fails after validation: the document is converted, compiled and written out. -/
theorem exists_generate {d : IntentDocument} (h : readIntent w file = .ok d)
    (valid : d.validate.isValid = true) :
    ∃ intent time, d.toIntent = .ok intent ∧ generate w s file output l7 noTimestamps =
      .ok (manifestText ⟨intent, time⟩ l7 (output.getD s.output)) := by
  obtain ⟨rules, hr, named⟩ := IntentDocument.isValid_validate_iff.1 valid
  obtain ⟨intent, made, -⟩ := IntentDocument.exists_toIntent hr named
  refine ⟨intent, if noTimestamps || !s.timestamps then .epoch else w.now, made, ?_⟩
  unfold generate
  rw [h]
  -- What is left is validation and conversion; rendering gives a text for all policies.
  show (if !d.validate.isValid then _ else _) = _
  rw [valid, made]
  rfl

end

/-- Both commands end well on the same files, whatever the options, and end in the same fault on all
others: that of reading the file, or else all problems of the document. Once validation finds none,
the document is converted and its manifests are written. -/
theorem commands_agree (w : World) (s : Settings) (file : String) (output : Option Format)
    (l7 noTimestamps : Bool) :
    let generated := generate w s file output l7 noTimestamps
    let verdict := (run w s (.validate file)).fault
    ((∃ text, generated = .ok text) ↔ verdict = none) ∧
    (∀ f, generated = .error f ↔ verdict = some f) ∧
    match readIntent w file with
    | .error f => ((∃ r, f = .io r) ∨ ∃ r, f = .text r) ∧
      generated = .error f ∧ verdict = some f
    | .ok d =>
      if d.validate.isValid then
        ∃ intent time, d.toIntent = .ok intent ∧
          generated = .ok (manifestText ⟨intent, time⟩ l7 (output.getD s.output)) ∧
          verdict = none
      else
        let fault := .invalid (d.validate.problems.map Problem.message)
        generated = .error fault ∧ verdict = some fault := by
  intro generated verdict
  cases h : readIntent w file with
  | error f =>
    have failed : generated = .error f := generate_of_error s output l7 noTimestamps h
    have found : verdict = some f := fault_of_error s h
    simp [failed, found, readIntent_error h]
  | ok d =>
    cases valid : d.validate.isValid with
    | false =>
      have failed : generated = _ := generate_of_invalid s output l7 noTimestamps h valid
      have found : verdict = some (.ofProblems d.validate.problems) :=
        (fault_of_ok s h).trans (if_neg (by simp [valid]))
      simp [failed, found, valid, Fault.ofProblems]
    | true =>
      obtain ⟨intent, time, made, written⟩ := exists_generate s output l7 noTimestamps h valid
      have found : verdict = none := (fault_of_ok s h).trans (if_pos valid)
      have text : ∃ text, generated = .ok text := ⟨_, written⟩
      refine ⟨by simp [text, found], fun f => ?_, ?_⟩
      · simp [generated, written, found]
      · simp only [valid, if_true]
        exact ⟨intent, time, made, written, found⟩

end TrafficIntent.CommandLine
