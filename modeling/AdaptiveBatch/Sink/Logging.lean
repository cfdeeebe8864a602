import AdaptiveBatch.Sink.Behaviour

/-!
# The logging sink

Takes everything and only tells of it.
-/

namespace AdaptiveBatch
namespace Sink

structure Logging (ν : Type) where
  name : String
  /-- What every probe answers. -/
  probe : ν

/-- What a call tells.  Items go by their text. -/
inductive LogEvent where
  | direct (item : String)
  | directAll (count : Nat)
  | batch (count : Nat) (first : Option String)
  | single (item : String)
  | closed
  deriving DecidableEq, Repr

def LogEvent.message : LogEvent → String
  | .direct _ => "Direct item"
  | .directAll _ => "Direct items"
  | .batch .. => "Batch received"
  | .single _ => "Single-item batch received"
  | .closed => "LogSink closed"

/-- The text of the first item of a batch, if it has one. -/
def LogEvent.firstText : Option String → String
  | some x => "Some(" ++ x ++ ")"
  | none => "None"

namespace Logging

/-- What a call comes to and what it tells. -/
def call {α ν : Type} (text : α → String) (s : Logging ν) :
    Request α → Reply ν × List LogEvent
  | .probe => (.answer s.probe, [])
  | .sendDirect x => (.done, [.direct (text x)])
  | .sendDirectAll xs => (.done, [.directAll xs.length])
  | .sendBatch xs => (.done, [.batch xs.length (xs.head?.map text)])
  | .sendSingle x => (.done, [.single (text x)])
  | .close => (.done, [.closed])

end Logging
end Sink
end AdaptiveBatch
