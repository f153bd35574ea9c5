import Roster.Text.Quoted
/-! # Database endpoints -/
namespace Roster

inductive SslMode
  | disable | allow | prefer | require | verifyCa | verifyFull
  deriving DecidableEq, Repr

namespace SslMode

def all : List SslMode := [disable, allow, prefer, require, verifyCa, verifyFull]

def name : SslMode → String
  | disable => "disable"
  | allow => "allow"
  | prefer => "prefer"
  | require => "require"
  | verifyCa => "verify-ca"
  | verifyFull => "verify-full"

/-- The mode with a name, in any case of its letters. -/
def parse? (s : String) : Option SslMode :=
  all.find? fun m => m.name == String.ofList (s.toList.map Char.toLower)

theorem parse?_name (m : SslMode) : parse? m.name = some m := by cases m <;> decide +kernel

end SslMode

structure Endpoint where
  host : String := "localhost"
  port : UInt16 := 5432
  user : String := "postgres"
  password : String := "postgres"
  database : String := "roster"
  sslMode : String := "disable"
  maxConnections : UInt32 := 10
  acquireTimeoutMs : UInt64 := 5000
  deriving DecidableEq, Repr, Inhabited

structure InvalidSslMode where
  mode : String
  deriving DecidableEq, Repr

def InvalidSslMode.message (e : InvalidSslMode) : String := "invalid ssl mode " ++ Text.quote e.mode

def Endpoint.sslMode? (e : Endpoint) : Except InvalidSslMode SslMode :=
  match SslMode.parse? e.sslMode with
  | some m => .ok m
  | none => .error ⟨e.sslMode⟩

end Roster
