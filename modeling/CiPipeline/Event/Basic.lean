/-
  CiPipeline.Event.Basic
  ──────────────────────
  **Events of a run, and who receives them.**

  A run tells that it has started, of each link that it has performed, and last
  that it has failed, has halted or is complete.  A sink keeps the events, logs
  them or drops them.
-/
import CiPipeline.Event.Attributes
import CiPipeline.Creation.Error

namespace CiPipeline

/-! ## §1. Events. -/

/-- An event as it is sent: its type, and what there is to say about it. -/
structure Event where
  type : String
  data : Json
  deriving Inhabited

/-- An event of a run.  How long something took is not part of it. -/
inductive RunEvent where
  | started (attributes : RunAttributes) (links : List String)
  | linkCompleted (link : String)
  | failed (attributes : RunAttributes) (link : String) (performed : List String)
      (error : CreationError)
  | halted (attributes : RunAttributes) (errors : List String)
  | completed (attributes : RunAttributes) (performed : List String)
  deriving DecidableEq, Repr

namespace RunEvent

/-- The type of an event. -/
def type : RunEvent → String
  | .started .. => "chain.started"
  | .linkCompleted .. => "chain.link.completed"
  | .failed .. => "chain.failed"
  | .halted .. => "chain.halted"
  | .completed .. => "chain.completed"

/-- What there is to say about an event; `duration` is the time that it took. -/
def data (duration : Json) : RunEvent → Json
  | .started attributes links =>
      .object [("attributes", RunAttributes.codec.encode attributes), ("links", .strings links)]
  | .linkCompleted link => .object [("link", .string link), ("duration_ms", duration)]
  | .failed attributes link performed error =>
      .object
        [("attributes", RunAttributes.codec.encode attributes), ("link", .string link),
         ("performed", .strings performed), ("error", .string error.message)]
  | .halted attributes errors =>
      .object [("attributes", RunAttributes.codec.encode attributes), ("errors", .strings errors)]
  | .completed attributes performed =>
      .object
        [("attributes", RunAttributes.codec.encode attributes), ("performed", .strings performed),
         ("duration_ms", duration)]

/-- The event as it is sent. -/
def sent (duration : Json) (e : RunEvent) : Event := ⟨e.type, e.data duration⟩

end RunEvent

/-! ## §2. What a run leaves behind. -/

/-- What a link tells while it is performed: a line of the log, or that something
has been called whose calls are kept. -/
inductive Note where
  | log (line : LogLine)
  | call (name : String)
  deriving DecidableEq, Repr

/-- What a run tells: the notes of its links and its own, and its events. -/
inductive Notice where
  | note (n : Note)
  | event (e : RunEvent)
  deriving DecidableEq, Repr

namespace Notice

/-- A line of the log. -/
def log (line : LogLine) : Notice := .note (.log line)

/-- The events among notices. -/
def events (trace : List Notice) : List RunEvent :=
  trace.filterMap fun
    | .event e => some e
    | .note _ => none

end Notice

namespace Note

/-- The lines of the log among notes. -/
def logs (notes : List Note) : List LogLine :=
  notes.filterMap fun
    | .log line => some line
    | .call _ => none

/-- The calls among notes. -/
def calls (notes : List Note) : List String :=
  notes.filterMap fun
    | .log _ => none
    | .call name => some name

end Note

/-- The calls among notices. -/
def Notice.calls (trace : List Notice) : List String :=
  Note.calls <| trace.filterMap fun
    | .event _ => none
    | .note n => some n

/-! ## §3. Sinks. -/

/-- Who receives events. -/
inductive Sink where
  /-- Keeps them. -/
  | collecting (events : List Event)
  /-- Drops them. -/
  | noop
  /-- Logs their types. -/
  | logging (level : Level)
  deriving Inhabited

namespace Sink

/-- The level at which a logging sink logs: only one for looking for faults does
not log as the normal course. -/
def lineLevel (level : Level) : Level :=
  if level = .debug then .debug else .info

/-- Receives an event. -/
def receive (e : Event) : Sink → Sink × List LogLine
  | .collecting events => (.collecting (events ++ [e]), [])
  | .noop => (.noop, [])
  | .logging level => (.logging level, [⟨lineLevel level, "Event: " ++ e.type⟩])

/-- The events that have been kept. -/
def events : Sink → List Event
  | .collecting events => events
  | .noop => []
  | .logging _ => []

/-- The events that have been kept whose types start in a given way. -/
def eventsFrom (s : Sink) (start : String) : List Event :=
  s.events.filter fun e => start.toList.isPrefixOf e.type.toList

/-- Receives the events of a run; the result has the lines of the log in order. -/
def follow (duration : Json) (s : Sink) : List Notice → Sink × List LogLine
  | [] => (s, [])
  | .note (.log line) :: rest =>
      let (s, lines) := s.follow duration rest
      (s, line :: lines)
  | .note (.call _) :: rest => s.follow duration rest
  | .event e :: rest =>
      let (s, first) := s.receive (e.sent duration)
      let (s, lines) := s.follow duration rest
      (s, first ++ lines)

end Sink

end CiPipeline
