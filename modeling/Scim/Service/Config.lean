import Scim.Fault
import Scim.Log
import Scim.Metadata
import Scim.Text.Blank

/-!
# Configuration

Where the resources of a service are found, and how long one call to a repository may take.
-/

namespace Scim

structure Config where
  /-- The address of the service, without the segment of the protocol version. -/
  baseUrl : String
  /-- The segment of the protocol version. -/
  version : String
  /-- The limit of a call in milliseconds; without one a call is waited for as long as it takes. -/
  timeoutMs : Option Nat
  deriving DecidableEq, Repr

namespace Config

def default : Config :=
  ⟨"https://localhost", "v2", none⟩

/-- The address of a resource. -/
def resourceLocation (c : Config) (endpoint id : String) : String :=
  locationOf (Text.trimEndOf '/' c.baseUrl ++ "/" ++ c.version) endpoint id

def hasScheme (url : String) : Bool :=
  "http://".toList.isPrefixOf url.toList || "https://".toList.isPrefixOf url.toList

def validate (c : Config) : Except Fault Unit :=
  if Text.isBlank c.baseUrl then .error (.configuration "Base URL cannot be empty")
  else if !hasScheme c.baseUrl then
    .error (.configuration "Base URL must start with http:// or https://")
  else if Text.isBlank c.version then .error (.configuration "SCIM version cannot be empty")
  else if c.timeoutMs = some 0 then
    .error (.configuration "Repository timeout must be greater than zero")
  else .ok ()

/-- The configuration, if a service can be run with it. -/
def accepted (c : Config) : Except Fault Config :=
  c.validate.map fun _ => c

end Config

/-- A duration of whole milliseconds as a message shows it: in seconds from one second on, with the
digits after the point that are needed. -/
def durationText (ms : Nat) : String :=
  if ms < 1000 then countText ms ++ "ms"
  else if ms % 1000 = 0 then countText (ms / 1000) ++ "s"
  else
    let thousandths := Time.padded 3 (ms % 1000)
    let kept := (thousandths.reverse.dropWhile (· == '0')).reverse
    countText (ms / 1000) ++ "." ++ String.ofList kept ++ "s"

end Scim
