import TrafficIntent.Intent.Conversion
import TrafficIntent.Manifest.Cluster

namespace TrafficIntent

inductive Failure where
  | invalid (problems : List String)
  | unserializable (kind : Option String) (reason : String)
  deriving DecidableEq

/-- All problems, in one line. -/
def joinedProblems (problems : List String) : String := "; ".intercalate problems

/-- The complaint about an intent that cannot be converted. -/
def invalidIntent (problems : List String) : String := "invalid intent: " ++ joinedProblems problems

def Failure.message : Failure → String
  | invalid problems =>
    "validation error: " ++ toString problems.length ++ " validation error(s): " ++
      joinedProblems problems
  | unserializable _ reason => "serialization error: " ++ reason

/-- The policy as the cluster's interface takes it, or why it does not. -/
def NetworkPolicy.forCluster (p : NetworkPolicy) : Except Failure Cluster.Policy :=
  match p.toCluster with
  | .ok c => .ok c
  | .error m => .error (.unserializable (some (Resource.kind NetworkPolicy)) (m.message .json))

end TrafficIntent
