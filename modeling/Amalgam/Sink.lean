namespace Amalgam

/-!
# Destinations

An append-only destination that may run full.  A write appends what fits; it is
refused when bytes are left over, and the part that did fit stays.  An empty
write is never refused.
-/

/-- Why a destination refuses. -/
inductive SinkFault where
  | full
  | flushRefused
deriving DecidableEq

/-- What a user reads. -/
def SinkFault.message : SinkFault → String
  | .full => "sink full"
  | .flushRefused => "flush refused"

/-- An append-only destination. -/
structure Sink where
  /-- What has been written. -/
  bytes : ByteArray
  /-- The number of bytes that the destination holds at most. -/
  limit : Option Nat
  /-- Whether the final flush is refused. -/
  refusesFlush : Bool

namespace Sink

/-- An empty destination without a limit. -/
def unbounded : Sink :=
  ⟨ByteArray.empty, none, false⟩

/-- An empty destination that holds at most `limit` bytes. -/
def limited (limit : Nat) : Sink :=
  ⟨ByteArray.empty, some limit, false⟩

/-- Appends data, or the part of it that fits. -/
def write (data : ByteArray) : EStateM SinkFault Sink Unit
  | ⟨bytes, none, refusesFlush⟩ => .ok () ⟨bytes ++ data, none, refusesFlush⟩
  | ⟨bytes, some limit, refusesFlush⟩ =>
      let free := limit - bytes.size
      if data.size ≤ free then .ok () ⟨bytes ++ data, some limit, refusesFlush⟩
      else .error .full ⟨bytes ++ data.extract 0 free, some limit, refusesFlush⟩

/-- Asks the destination to keep what it was given. -/
def flush : EStateM SinkFault Sink Unit := fun sink =>
  if sink.refusesFlush then .error .flushRefused sink else .ok () sink

end Sink
end Amalgam
