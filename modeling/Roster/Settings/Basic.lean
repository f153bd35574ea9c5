import Roster.Settings.Endpoint
import Roster.Message
/-! # Settings of the server -/
namespace Roster

inductive StoreKind
  | memory | postgres
  deriving DecidableEq, Repr

def StoreKind.name : StoreKind → String
  | memory => "memory"
  | postgres => "postgres"

structure ServiceSettings where
  serviceName : String := "user"
  maxPageLimit : UInt32 := Page.defaultMaxLimit
  operationTimeoutMs : UInt64 := 30000
  metrics : Bool := true
  logging : Bool := true
  tracing : Bool := true
  errorReporting : Bool := true
  deriving DecidableEq, Repr, Inhabited

structure HttpSettings where
  host : String := "0.0.0.0"
  port : UInt16 := 8080
  corsOrigins : List String := ["*"]
  requestTimeoutMs : UInt64 := 30000
  deriving DecidableEq, Repr, Inhabited

structure Settings where
  service : ServiceSettings := {}
  http : HttpSettings := {}
  probeIntervalSecs : UInt64 := 60
  store : StoreKind := .postgres
  notifyChannel : String := defaultChannel
  master : Endpoint := {}
  replica : Endpoint := {}
  logLevel : String := "info"
  logJson : Bool := false
  metricsPort : UInt16 := 9090
  environment : String := "development"
  deriving DecidableEq, Repr

end Roster
