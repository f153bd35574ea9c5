import Roster.Failure
import Roster.Report
/-! # Listening for HTTP connections -/
namespace Roster.Http

def isDottedQuad (host : String) : Bool :=
  let parts := host.toList.splitOn '.'
  let isPart (cs : List Char) : Bool :=
    cs != [] && cs.all Char.isDigit && cs.length ≤ 3 && (cs.length == 1 || cs.head? != some '0') &&
      cs.foldl (fun n c => n * 10 + (c.toNat - 0x30)) 0 < 256
  parts.length == 4 && parts.all isPart

/-- The host is known without asking for its address. -/
def isKnownHost (host : String) : Bool :=
  isDottedQuad host || ["localhost", "::", "::1", "[::]", "[::1]"].contains host

def address (host : String) (port : String) : String := host ++ ":" ++ port

/-- Why a listener did not start. -/
def bindingFailed (host : String) (port : UInt16) (reason : String) : Chain :=
  ["binding " ++ address host (toString port), reason]

def notStarted : Chain := ["start() must be called before serve()"]

def boundEvent (host port : String) : Event :=
  { level := .info, message := "TCP listener bound to " ++ address host port }

def servingEvent : Event := { level := .info, message := "Serving HTTP connections" }

def stoppedEvent : Event := { level := .info, message := "HTTP server stopped" }

end Roster.Http
