import Shipment.Review
import Shipment.Flow

/-!
# Outcomes

What a run that did not fail ended with: the flow, the branch it ended on, the
base, the notices, and either the reason there was nothing to do or what was
shipped.  `Outcome.toJson` is the document printed for other programs.
-/

namespace Shipment

/-- How a run ended. -/
inductive RunResult where
  /-- There was nothing to do. -/
  | noOp (reason : NoOpReason)
  /-- The branch is on `origin` and has a request. -/
  | shipped (committed : Bool) (pushed : Option PushMode) (request : RequestResult)
deriving DecidableEq, Repr

namespace RunResult

/-- The fields of the result in a document. -/
def toFields : RunResult → List (String × Json)
  | noOp reason => [("outcome", .text "no-op"), ("reason", .text reason.name)]
  | shipped committed pushed request =>
      [("outcome", .text "shipped"), ("committed", .bool committed),
        ("pushed", .optional (pushed.map PushMode.name)), ("pr", request.toJson)]

end RunResult

/-- What a run ended with. -/
structure Outcome where
  /-- The flow. -/
  flow : Flow
  /-- The branch the run ended on. -/
  branch : String
  /-- The base branch. -/
  base : String
  /-- The notices, in order. -/
  notices : List Notice
  /-- How it ended. -/
  result : RunResult
deriving DecidableEq, Repr

namespace Outcome

/-- Whether there was nothing to do. -/
def isNoOp (o : Outcome) : Bool :=
  match o.result with
  | .noOp _ => true
  | .shipped .. => false

/-- The request of a shipped branch. -/
def request? (o : Outcome) : Option RequestResult :=
  match o.result with
  | .noOp _ => none
  | .shipped _ _ request => some request

/-- The outcome as a document. -/
def toJson (o : Outcome) : Json :=
  .fields <|
    [("flow", .text o.flow.name), ("branch", .text o.branch), ("base", .text o.base),
      ("notices", .array (o.notices.map Notice.toJson))] ++ o.result.toFields

end Outcome

end Shipment
