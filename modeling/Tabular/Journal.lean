/-!
# Tabular.Journal — what is reported while work goes on

Events with a level go to a journal.  Code that reports is written over any monad with a `Journal`, so
that it can be run with the events kept, shown or dropped.
-/

namespace Tabular

/-- The levels of events, the least important first. -/
inductive Level where
  | trace
  | debug
  | info
  | warn
  | error
deriving DecidableEq, Repr

/-- How a level is shown. -/
def Level.text : Level → String
  | trace => "TRACE"
  | debug => "DEBUG"
  | info => "INFO"
  | warn => "WARN"
  | error => "ERROR"

/-- A reported event. -/
structure Event where
  level : Level
  message : String
deriving DecidableEq, Repr

namespace Event

/-- How an event is shown: its level, then the message. -/
def text (e : Event) : String := e.level.text ++ " " ++ e.message

/-- An event of the level that its name says. -/
def trace (message : String) : Event := ⟨.trace, message⟩

@[inherit_doc trace]
def debug (message : String) : Event := ⟨.debug, message⟩

@[inherit_doc trace]
def info (message : String) : Event := ⟨.info, message⟩

@[inherit_doc trace]
def warn (message : String) : Event := ⟨.warn, message⟩

@[inherit_doc trace]
def error (message : String) : Event := ⟨.error, message⟩

end Event

/-- A monad in which events can be reported. -/
class Journal (m : Type → Type u) where
  report : Event → m Unit

export Journal (report)

instance {m : Type → Type u} {n : Type → Type v} [MonadLift m n] [Journal m] : Journal n :=
  ⟨fun e => monadLift (report e : m Unit)⟩

/-- Reports events in turn. -/
def reportAll {m : Type → Type u} [Monad m] [Journal m] (events : List Event) : m Unit :=
  events.forM report

end Tabular
