import TrafficIntent.Proofs.Regularity
import TrafficIntent.Proofs.Shape
import TrafficIntent.Proofs.Yaml.Manifests
import TrafficIntent.Rendering

namespace TrafficIntent

open Json (textsIn textsInItems textsInMembers)
open Yaml (IsRegular RegularItems RegularMembers IsDocument ReadsBack Keeps valueOf documentsText styleOf)

namespace Yaml

variable {p q : String → Prop}

mutual

/-- A regular tree is one whatever kind its texts are of. -/
theorem IsRegular.of_texts (j : Json) (h : IsRegular q j) (texts : ∀ s ∈ textsIn j, p s) :
    IsRegular p j := by
  match j with
  | .null => exact h.elim
  | .bool _ => exact h.elim
  | .number (.real _) => exact h.elim
  | .number (.integer _) => exact h
  | .string s => exact texts s (by simp [textsIn])
  | .array js => exact RegularItems.of_texts js h texts
  | .object ms => exact ⟨h.1, RegularMembers.of_texts ms h.2 texts⟩

theorem RegularItems.of_texts (js : List Json) (h : RegularItems q js)
    (texts : ∀ s ∈ textsInItems js, p s) : RegularItems p js := by
  match js with
  | [] => trivial
  | j :: js =>
    rw [textsInItems, List.forall_mem_append] at texts
    exact ⟨h.1, IsRegular.of_texts j h.2.1 texts.1, RegularItems.of_texts js h.2.2 texts.2⟩

theorem RegularMembers.of_texts (ms : List (String × Json)) (h : RegularMembers q ms)
    (texts : ∀ s ∈ textsInMembers ms, p s) : RegularMembers p ms := by
  match ms with
  | [] => trivial
  | (k, j) :: ms =>
    rw [textsInMembers, List.forall_mem_append] at texts
    exact ⟨h.1, IsRegular.of_texts j h.2.1 texts.1, RegularMembers.of_texts ms h.2.2 texts.2⟩

end

theorem IsDocument.of_texts {j : Json} (h : IsDocument q j) (texts : ∀ s ∈ textsIn j, p s) :
    IsDocument p j := by
  match j with
  | .object (m :: ms) => exact IsRegular.of_texts (.object (m :: ms)) h texts

theorem trees_valueOf_iff {js : List Json} (hj : ∀ j ∈ js, IsDocument Keeps j) :
    Value.trees (js.map (valueOf 0)) = .ok (js.map Json.sorted) ↔
      ∀ j ∈ js, ∀ s ∈ textsIn j, ReadsBack s := by
  induction js with
  | nil => simp [Value.trees]
  | cons j js ih =>
    have first : (valueOf 0 j).tree = .ok j.sorted ↔ ∀ s ∈ textsIn j, ReadsBack s := by
      have regular := hj j List.mem_cons_self
      match j with
      | .object (m :: ms) => exact tree_valueOf_iff 0 (.object (m :: ms)) regular (by simp)
    rw [List.map_cons, List.map_cons, trees_cons_iff, first,
      ih fun k hk => hj k (List.mem_cons_of_mem _ hk)]
    simp

end Yaml

section

variable {α : Type} [Resource α]

/-- The texts that manifests are made of. -/
def textsOf (ms : List α) : List String := ms.flatMap fun m => textsIn (Resource.toJson m)

theorem toYaml_eq {p : String → Prop} {ms : List α}
    (h : ∀ m ∈ ms, IsDocument p (Resource.toJson m)) :
    toYaml ms = String.ofList (documentsText (ms.map Resource.toJson)) := by
  have text : ∀ m ∈ ms, Yaml.text (Resource.toJson m) =
      String.ofList (Yaml.block 0 (Resource.toJson m)) := by
    intro m hm
    have document := h m hm
    unfold Yaml.text
    cases tree : Resource.toJson m with
    | string s => rw [tree] at document; exact document.elim
    | _ => rfl
  clear h
  unfold toYaml
  induction ms with
  | nil => rfl
  | cons m ms ih =>
    have first := text m List.mem_cons_self
    have others := ih fun k hk => text k (List.mem_cons_of_mem _ hk)
    cases ms with
    | nil =>
      rw [List.map_cons, List.map_nil, String.intercalate_singleton, first]
      rfl
    | cons k ks =>
      have later : documentSeparator.intercalate
          (Yaml.text (Resource.toJson k) :: ks.map fun m => Yaml.text (Resource.toJson m)) =
          String.ofList (documentsText ((k :: ks).map Resource.toJson)) := others
      have mark : documentSeparator = String.ofList ['-', '-', '-', '\n'] := rfl
      rw [List.map_cons, List.map_cons, String.intercalate_cons_cons, first, later, mark,
        ← String.ofList_append, ← String.ofList_append]
      congr 1
      simp [documentsText]

/-- Manifests are read back if their texts are. -/
theorem manifests_toYaml_iff {ms : List α}
    (h : ∀ m ∈ ms, IsDocument (fun _ => True) (Resource.toJson m))
    (keeps : ∀ s ∈ textsOf ms, Keeps s) :
    Yaml.manifests (toYaml ms) = .ok (structured ms) ↔ ∀ s ∈ textsOf ms, ReadsBack s := by
  have documents : ∀ j ∈ ms.map Resource.toJson, IsDocument Keeps j := by
    intro j hj
    obtain ⟨m, hm, rfl⟩ := List.mem_map.1 hj
    exact (h m hm).of_texts fun s hs => keeps s (List.mem_flatMap.2 ⟨m, hm, hs⟩)
  have trees : structured ms = (ms.map Resource.toJson).map Json.sorted := by
    rw [List.map_map]
    rfl
  rw [toYaml_eq h, Yaml.manifests_documentsText documents, trees,
    Yaml.trees_valueOf_iff documents]
  rw [textsOf, List.forall_mem_map, List.forall_mem_flatMap]

end

/-- What is compiled is read back from its YAML text if its texts are. -/
theorem Compilation.reads_back_iff (c : Compilation)
    (keeps : ∀ s ∈ textsOf c.policies.manifests ++ textsOf c.cilium, Keeps s) :
    (Yaml.manifests (toYaml c.policies.manifests) = .ok (structured c.policies.manifests) ↔
        ∀ s ∈ textsOf c.policies.manifests, ReadsBack s) ∧
      (Yaml.manifests (toYaml c.cilium) = .ok (structured c.cilium) ↔
        ∀ s ∈ textsOf c.cilium, ReadsBack s) := by
  rw [List.forall_mem_append] at keeps
  exact ⟨manifests_toYaml_iff (fun p hp => isDocument_networkPolicy (c.knownLabels_manifests p hp))
    keeps.1,
    manifests_toYaml_iff (fun p hp => isDocument_ciliumPolicy (c.knownLabels_cilium p hp)) keeps.2⟩

/-- An intent whose namespace is a plain text to the writer and a number to the reader. -/
def signedNamespace : Compilation where
  intent := { Intent.new "n" "+-1" [] with description := some "+-1" }
  generatedAt := .epoch

theorem reads_back_signedNamespace :
    (∀ s ∈ textsOf signedNamespace.policies.manifests ++ textsOf signedNamespace.cilium, Keeps s) ∧
      Yaml.manifests (toYaml signedNamespace.policies.manifests) ≠
        .ok (structured signedNamespace.policies.manifests) ∧
      Yaml.manifests (toYaml signedNamespace.cilium) = .ok (structured signedNamespace.cilium) := by
  have policies : signedNamespace.policies.manifests = [signedNamespace.baseline "+-1"] := by
    rw [signedNamespace.manifests_eq]
    rfl
  have cilium : signedNamespace.cilium = [] := rfl
  have keeps : ∀ s ∈ textsOf signedNamespace.policies.manifests ++ textsOf signedNamespace.cilium,
      Keeps s := by
    have plain : ∀ s ∈ textsOf [signedNamespace.baseline "+-1"], styleOf s = .plain := by
      decide +kernel
    rw [policies, cilium]
    intro s hs literal
    rw [show textsOf ([] : List CiliumPolicy) = [] from rfl, List.append_nil] at hs
    rw [plain s hs] at literal
    contradiction
  have number : ¬ReadsBack "+-1" := by
    have style : styleOf "+-1" = .plain := by decide +kernel
    have value : Yaml.Value.ofPlain "+-1" = .integer (-1) := rfl
    unfold ReadsBack
    rw [style, value]
    intro same
    rw [Yaml.Value.tree] at same
    cases same
  refine ⟨keeps, ?_, ?_⟩
  · intro same
    have texts := (signedNamespace.reads_back_iff keeps).1.1 same
    rw [policies] at texts
    exact number (texts "+-1" (by decide +kernel))
  · refine (signedNamespace.reads_back_iff keeps).2.2 fun s hs => ?_
    rw [cilium] at hs
    simp [textsOf] at hs

end TrafficIntent
