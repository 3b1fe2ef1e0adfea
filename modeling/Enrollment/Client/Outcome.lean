/-
How far an exchange comes, and what comes of it.
-/
import Enrollment.Certificate.Chain
import Enrollment.Notice

namespace Enrollment.Client

/-- How far an issuance has come; the last two are its ends. -/
inductive Stage where
  | init
  | keyGenerated
  | requestSent
  | responseReceived
  | validated
  | rejected
  deriving Repr, DecidableEq

/-- The label of a stage. -/
def Stage.label : Stage → String
  | .init => "Init"
  | .keyGenerated => "KeyGenerated"
  | .requestSent => "RequestSent"
  | .responseReceived => "ResponseReceived"
  | .validated => "Validated"
  | .rejected => "Rejected"

/-- What came of an exchange. -/
structure Outcome where
  /-- The stages that were passed, from the first to the end. -/
  stages : List Stage
  result : Except Failure Chain

/-- The steps from stage to stage. -/
def Outcome.steps (o : Outcome) : List (Stage × Stage) :=
  o.stages.zip o.stages.tail

/-- What is noted of an exchange. -/
def Outcome.notices (o : Outcome) : List Notice :=
  match o.result with
  | .error (.security .responseCode) => [.responseCode]
  | _ => []

/-- The outcome of an exchange that ends after some stages. -/
def Outcome.after (stages : List Stage) (result : Except Failure Chain) : Outcome :=
  ⟨stages ++ [if result.isOk then .validated else .rejected], result⟩

end Enrollment.Client
