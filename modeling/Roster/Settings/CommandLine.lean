import Roster.Settings.Basic
import Roster.Text.Integer
/-! # The command line

Every option has a flag and a variable of the environment; a flag wins over its variable, and a
variable over the default. A value follows its flag after `=` or as the next argument, which then
does not begin with a dash. -/
namespace Roster.CommandLine
open Text

inductive Role
  | master | replica
  deriving DecidableEq, Repr

inductive Parameter
  | host | port | user | password | database | sslMode | maxConnections
  deriving DecidableEq, Repr

inductive Setting
  | httpHost | httpPort | requestTimeout | corsOrigins
  | store | notifyChannel
  | endpoint (role : Role) (parameter : Parameter)
  | logLevel | logJson | logging | tracing | metrics | metricsPort | errorReporting | environment
  | maxPageLimit | operationTimeout | probeInterval
  deriving DecidableEq, Repr

inductive ValueType
  /-- Any text. -/
  | text
  /-- Texts with commas between them; every use adds to the list. -/
  | texts
  /-- A whole number in a range; `signed` ones may have a minus sign. -/
  | number (least greatest : Nat) (signed : Bool)
  /-- The name of a store. -/
  | store
  /-- The word `true` or `false`. -/
  | toggle
  /-- No value: the flag alone says `true`, the variable has a toggle. -/
  | switch
  deriving DecidableEq, Repr

inductive Value
  | text (s : String)
  | texts (l : List String)
  | number (n : Nat)
  | store (k : StoreKind)
  | flag (b : Bool)
  deriving DecidableEq, Repr

def Role.all : List Role := [.master, .replica]

def Parameter.all : List Parameter :=
  [.host, .port, .user, .password, .database, .sslMode, .maxConnections]

def Role.name : Role → String
  | master => "master"
  | replica => "replica"

def Parameter.name : Parameter → String
  | host => "host"
  | port => "port"
  | user => "user"
  | password => "password"
  | database => "database"
  | sslMode => "ssl-mode"
  | maxConnections => "max-connections"

namespace Setting

/-- All options, in the order in which their variables are looked up. -/
def all : List Setting :=
  [httpHost, httpPort, requestTimeout, corsOrigins, store, notifyChannel] ++
    Role.all.flatMap (fun r => Parameter.all.map (endpoint r)) ++
    [logLevel, logJson, logging, tracing, metrics, metricsPort, errorReporting, environment,
      maxPageLimit, operationTimeout, probeInterval]

theorem mem_all (s : Setting) : s ∈ all := by
  cases s <;> try decide
  rename_i r p
  cases r <;> cases p <;> decide

def flag : Setting → String
  | httpHost => "http-host"
  | httpPort => "http-port"
  | requestTimeout => "request-timeout-ms"
  | corsOrigins => "cors-origins"
  | store => "store"
  | notifyChannel => "notify-channel"
  | endpoint r p => r.name ++ "-" ++ p.name
  | logLevel => "log-level"
  | logJson => "log-json"
  | logging => "logging-enabled"
  | tracing => "tracing-enabled"
  | metrics => "metrics-enabled"
  | metricsPort => "metrics-port"
  | errorReporting => "error-reporting-enabled"
  | environment => "environment"
  | maxPageLimit => "max-page-limit"
  | operationTimeout => "operation-timeout-ms"
  | probeInterval => "probe-interval-secs"

/-- The variable: the flag in capitals behind a common beginning, but for the log filter. -/
def envName : Setting → String
  | logLevel => "ROSTER_LOG"
  | s => "ROSTER_" ++ String.ofList
      (s.flag.toList.map fun c => if c = '-' then '_' else c.toUpper)

def valueType : Setting → ValueType
  | httpPort | metricsPort | endpoint _ .port => .number 0 65535 true
  | endpoint _ .maxConnections => .number 0 4294967295 true
  | maxPageLimit => .number 1 4294967295 true
  | requestTimeout | operationTimeout => .number 0 18446744073709551615 false
  | probeInterval => .number 1 18446744073709551615 false
  | corsOrigins => .texts
  | store => .store
  | logJson => .switch
  | logging | tracing | metrics | errorReporting => .toggle
  | httpHost | notifyChannel | endpoint .. | logLevel | environment => .text

def ofFlag? (flag : String) : Option Setting := all.find? fun s => s.flag == flag

end Setting

/-- Why the arguments give no settings. Two of the reasons are requests for information. -/
inductive Refusal
  | unknownArgument | invalidValue | valueValidation | argumentConflict | tooManyValues
  | displayHelp | displayVersion
  deriving DecidableEq, Repr

def parseToggle? (s : String) : Option Bool :=
  if s = "true" then some true else if s = "false" then some false else none

def parseValue (t : ValueType) (s : String) : Except Refusal Value :=
  match t with
  | .text => .ok (.text s)
  | .texts => .ok (.texts (splitCommas s))
  | .number least greatest signed =>
    let n? : Option Int := if signed then parseInteger? s else (parseNatural? s).map Int.ofNat
    match n? with
    | some n => if least ≤ n ∧ n ≤ greatest then .ok (.number n.toNat) else .error .valueValidation
    | none => .error .valueValidation
  | .store =>
    if s = "memory" then .ok (.store .memory)
    else if s = "postgres" then .ok (.store .postgres)
    else .error .invalidValue
  | .toggle | .switch =>
    match parseToggle? s with
    | some b => .ok (.flag b)
    | none => .error .invalidValue

abbrev Values := List (Setting × Value)

/-- Gives an option a value: a list grows, any other option may be used once. -/
def assign (values : Values) (s : Setting) (v : Value) : Except Refusal Values :=
  match values.lookup s, v with
  | none, v => .ok (values ++ [(s, v)])
  | some (.texts l), .texts l' => .ok (values.map fun e => if e.1 = s then (s, .texts (l ++ l')) else e)
  | some _, _ => .error .argumentConflict

/-- Takes a text as the value of an option. An option that has one already is refused before the
text is looked at. -/
def accept (values : Values) (s : Setting) (raw : String) : Except Refusal Values :=
  if s.valueType ≠ .texts ∧ (values.lookup s).isSome then .error .argumentConflict
  else (parseValue s.valueType raw).bind (assign values s)

/-- The option whose value is not settled: it still waits for one, or has one that was not looked
at. -/
inductive Pending
  | nothing
  | waiting (s : Setting)
  | given (s : Setting) (raw : String)
  deriving DecidableEq, Repr

def settle (values : Values) : Pending → Except Refusal Values
  | .nothing => .ok values
  | .waiting _ => .error .invalidValue
  | .given s raw => accept values s raw

def splitFlag (cs : List Char) : String × Option String :=
  let name := cs.takeWhile (· != '=')
  (String.ofList name, ((cs.drop name.length).tail?).map String.ofList)

def stepLong (values : Values) (pending : Pending) (cs : List Char) :
    Except Refusal (Values × Pending) :=
  match splitFlag cs with
  | ("help", value) =>
    if value.isSome then .error .tooManyValues
    else (settle values pending).bind fun _ => .error .displayHelp
  | ("version", value) =>
    if value.isSome then .error .tooManyValues
    else (settle values pending).bind fun _ => .error .displayVersion
  | (name, value) =>
    match Setting.ofFlag? name with
    | none => .error .unknownArgument
    | some s =>
      if s.valueType = .switch then
        if value.isSome then .error .tooManyValues
        else
          (settle values pending).bind fun values =>
            (assign values s (.flag true)).map fun values => (values, .nothing)
      else
        (settle values pending).bind fun values =>
          match value with
          | none => .ok (values, .waiting s)
          | some raw => (accept values s raw).map fun values => (values, .nothing)

def step (values : Values) (pending : Pending) (arg : String) :
    Except Refusal (Values × Pending) :=
  match arg.toList with
  | '-' :: '-' :: cs => stepLong values pending cs
  | '-' :: 'h' :: _ => (settle values pending).bind fun _ => .error .displayHelp
  | '-' :: 'V' :: _ => (settle values pending).bind fun _ => .error .displayVersion
  | '-' :: _ :: _ => .error .unknownArgument
  | _ =>
    match pending with
    | .waiting s => .ok (values, .given s arg)
    | _ => .error .unknownArgument

/-- All arguments. Two dashes alone end the options, and there is nothing else to give. -/
def steps (values : Values) (pending : Pending) : List String → Except Refusal Values
  | [] => settle values pending
  | arg :: args =>
    if arg = "--" then
      if args = [] then settle values pending else .error .unknownArgument
    else
      match step values pending arg with
      | .error e => .error e
      | .ok (values, pending) => steps values pending args

/-- Looks up the variables of the options that have no value. -/
def fromVariables (env : String → Option String) (values : Values) : Except Refusal Values :=
  Setting.all.foldlM (fun values s =>
    if (values.lookup s).isSome then .ok values
    else
      match env s.envName with
      | none => .ok values
      | some raw => accept values s raw) values

def numberOr (values : Values) (s : Setting) (default : Nat) : Nat :=
  match values.lookup s with
  | some (.number n) => n
  | _ => default

def textOr (values : Values) (s : Setting) (default : String) : String :=
  match values.lookup s with
  | some (.text t) => t
  | _ => default

def flagOr (values : Values) (s : Setting) (default : Bool) : Bool :=
  match values.lookup s with
  | some (.flag b) => b
  | _ => default

def endpointOf (values : Values) (role : Role) : Endpoint :=
  let d : Endpoint := {}
  { host := textOr values (.endpoint role .host) d.host
    port := .ofNat (numberOr values (.endpoint role .port) d.port.toNat)
    user := textOr values (.endpoint role .user) d.user
    password := textOr values (.endpoint role .password) d.password
    database := textOr values (.endpoint role .database) d.database
    sslMode := textOr values (.endpoint role .sslMode) d.sslMode
    maxConnections := .ofNat (numberOr values (.endpoint role .maxConnections)
      d.maxConnections.toNat)
    acquireTimeoutMs := d.acquireTimeoutMs }

def settingsOf (values : Values) : Settings :=
  let d : Settings := {}
  { service := {
      serviceName := d.service.serviceName
      maxPageLimit := .ofNat (numberOr values .maxPageLimit d.service.maxPageLimit.toNat)
      operationTimeoutMs := .ofNat
        (numberOr values .operationTimeout d.service.operationTimeoutMs.toNat)
      metrics := flagOr values .metrics d.service.metrics
      logging := flagOr values .logging d.service.logging
      tracing := flagOr values .tracing d.service.tracing
      errorReporting := flagOr values .errorReporting d.service.errorReporting }
    http := {
      host := textOr values .httpHost d.http.host
      port := .ofNat (numberOr values .httpPort d.http.port.toNat)
      corsOrigins := match values.lookup .corsOrigins with
        | some (.texts l) => l
        | _ => d.http.corsOrigins
      requestTimeoutMs := .ofNat
        (numberOr values .requestTimeout d.http.requestTimeoutMs.toNat) }
    probeIntervalSecs := .ofNat (numberOr values .probeInterval d.probeIntervalSecs.toNat)
    store := match values.lookup .store with
      | some (.store k) => k
      | _ => d.store
    notifyChannel := textOr values .notifyChannel d.notifyChannel
    master := endpointOf values .master
    replica := endpointOf values .replica
    logLevel := textOr values .logLevel d.logLevel
    logJson := flagOr values .logJson d.logJson
    metricsPort := .ofNat (numberOr values .metricsPort d.metricsPort.toNat)
    environment := textOr values .environment d.environment }

def parse (env : String → Option String) (args : List String) : Except Refusal Settings :=
  ((steps [] .nothing args).bind (fromVariables env)).map settingsOf

end Roster.CommandLine
