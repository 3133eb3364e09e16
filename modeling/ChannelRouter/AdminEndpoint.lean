import ChannelRouter.Director
import ChannelRouter.JsonText
import ChannelRouter.Program

/-!
# The admin endpoint

Operators ask over HTTP whether the program is well and how large its routing
state is.  There are two resources, which can be read and nothing else; a query
or a fragment behind their path does not matter.
-/

namespace ChannelRouter

namespace AdminEndpoint

/-- What an operator can ask about. -/
inductive Resource where
  | health
  | stats
deriving DecidableEq, Repr

/-- A response: its status and its body. -/
structure Response where
  status : Nat
  body : String
deriving DecidableEq, Repr

/-- The resource at a path. -/
def Resource.at? (path : String) : Option Resource :=
  match String.ofList (path.toList.takeWhile fun c => c != '?' && c != '#') with
  | "/health" => some .health
  | "/stats" => some .stats
  | _ => none

/-- The report on the program's health: without its parent it is degraded. -/
def healthReport (director : Director) : String :=
  let degraded := (director.router.parent.map ParentLink.lost).getD false
  JsonText.object
    [ ("status", JsonText.quoted (if degraded then "degraded" else "ok")),
      ("version", JsonText.quoted Program.version) ]

/-- The report on the routing state. -/
def statsReport (stats : DirectorStats) : String :=
  JsonText.object
    [ ("participants", toString stats.participants),
      ("channels", toString stats.channels),
      ("range_intervals", toString stats.rangeIntervals),
      ("range_subscribers", toString stats.rangeSubscribers),
      ("queued", toString stats.queued),
      ("upstream", toString stats.federated) ]

/-- The report on a resource. -/
def report (director : Director) : Resource → String
  | .health => healthReport director
  | .stats => statsReport director.stats

/-- Answer a request. -/
def respond (director : Director) (method path : String) : Response :=
  match Resource.at? path with
  | none => ⟨404, ""⟩
  | some resource =>
    match method with
    | "GET" => ⟨200, report director resource⟩
    | "HEAD" => ⟨200, ""⟩
    | _ => ⟨405, ""⟩

end AdminEndpoint

end ChannelRouter
