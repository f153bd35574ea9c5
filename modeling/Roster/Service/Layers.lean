import Roster.Service.Users
import Roster.Settings.Basic
/-! # Observers around a service

Each layer adds notes to those of the calls inside it. A call whose caller has turned away leaves
nothing behind but its spans. -/
namespace Roster.Service

variable {σ : Type}

def counted (inner : Service σ) : Service σ := fun draw op s =>
  let call := inner draw op s
  { call with
    notes := call.notes ++ call.result.toList.map fun r => .counted op.name (codeOf r) }

/-- The severity and the message by which the end of a call is logged. -/
def logLine {α : Type} : Except OperationError α → Level × String
  | .ok _ => (.info, "call finished")
  | .error .notFound => (.warn, "call finished")
  | .error _ => (.error, "call failed")

def logEvent (op : Operation) (result : Except OperationError Response) : Event :=
  let (level, message) := logLine result
  let shown := match result with
    | .ok response => op.observed.log ++ response.observed.log
    | .error _ => op.observed.log
  { level, message
    fields := [("operation", op.name), ("call_id", toString op.context.callId),
        ("code", toString (codeOf result)), ("protocol", op.context.protocol.name),
        ("url", op.context.protocol.url?.getD ""), ("fields", renderFields shown)] ++
      match result with
      | .ok _ => []
      | .error e => [("error", e.message)] }

def logged (inner : Service σ) : Service σ := fun draw op s =>
  let call := inner draw op s
  { call with
    notes := call.notes ++ call.result.toList.map fun r => .event (logEvent op r) }

def spanFields (op : Operation) : List Field :=
  [("call_id", toString op.context.callId), ("protocol", op.context.protocol.name),
    ("request", renderFields op.observed.trace)]

def spanResult (result : Except OperationError Response) : List Field :=
  ("code", toString (codeOf result)) ::
    match result with
    | .ok response => [("response", renderFields response.observed.trace)]
    | .error e => [("otel.status_code", "ERROR"), ("error", e.message)]

def traced (inner : Service σ) : Service σ := fun draw op s =>
  let call := inner draw op s
  { call with
    notes := .opened op.name (spanFields op) :: call.notes ++
      [.closed (call.result.toList.flatMap spanResult)] }

/-- The report of a failed call. What is wrong with the request itself is not reported. -/
def report? (op : Operation) : Except OperationError Response → Option ErrorReport
  | .ok _ | .error (.invalid _) => none
  | .error e => some
    { message := e.message
      tags := [("operation", op.name), ("code", toString e.code)]
      extras := [("request", op.observed.report), ("response", [])] }

def reported (reporter : Reporter) (inner : Service σ) : Service σ := fun draw op s =>
  let call := inner draw op s
  { call with
    notes := call.notes ++ (call.result.bind (report? op)).toList.map reporter.capture }

def layer (wanted : Bool) (f : Service σ → Service σ) (inner : Service σ) : Service σ :=
  if wanted then f inner else inner

/-- The layers that the settings want: reports inside the span, the span inside the log, the count
outermost. -/
def pipeline (settings : ServiceSettings) (reporter : Reporter) (core : Service σ) : Service σ :=
  layer settings.metrics counted <|
    layer settings.logging logged <|
      layer settings.tracing traced <|
        layer settings.errorReporting (reported reporter) core

end Roster.Service
