import Shardway.Codec.Layout
import Shardway.Reply.Reading

/-!
Commands: the requests a client can make, each with the key that says where it goes and the way to
read its reply.
-/
namespace Shardway

/-- A request about a key, whose reply is read as a value of type `α`. -/
structure Command (α : Type) where
  key : Bytes
  request : List Bytes
  read : Reply → Except Fault α

namespace Command

/-- A word of a request. -/
def word (s : String) : Bytes := Text.Utf8.encode s

/-- A whole number in a request, in decimal. -/
def number (n : Int) : Bytes := word (toString n)

/-- Reads a reply as a value, and takes a misfit for a fault of the connection. -/
def reading (f : Reply.Reading α) (v : Reply) : Except Fault α :=
  (f v).mapError Reply.Misfit.fault

/-- The numbers in replies to commands. -/
def replyRange : Reply.Range := ⟨true, 64⟩

def readInt : Reply → Except Fault Int := reading (Reply.toInt replyRange)

/-- Takes any reply. -/
def readNothing (_ : Reply) : Except Fault Unit := .ok ()

def readOptionalBytes : Reply → Except Fault (Option Bytes) :=
  reading (Reply.toOption Reply.toBytes)

/-- Whole seconds, rounded up, and at least one. -/
def wholeSeconds (s : Span) : Nat :=
  if s.subsecNanos > 0 ∨ s.seconds = 0 then s.seconds + 1 else s.seconds

def get (key : Bytes) : Command (Option Bytes) :=
  ⟨key, [word "GET", key], readOptionalBytes⟩

def set (key value : Bytes) : Command Unit := ⟨key, [word "SET", key, value], readNothing⟩

/-- Sets a value that lasts for a while. -/
def setFor (key value : Bytes) (life : Span) : Command Unit :=
  ⟨key, [word "SETEX", key, number (wholeSeconds life), value], readNothing⟩

/-- Whether the key existed. -/
def delete (key : Bytes) : Command Bool :=
  ⟨key, [word "DEL", key], fun v => (readInt v).map fun n => decide (0 < n)⟩

def exist (key : Bytes) : Command Bool :=
  ⟨key, [word "EXISTS", key], fun v => (readInt v).map fun n => decide (0 < n)⟩

/-- Whether the key exists and now has a limited life. -/
def expire (key : Bytes) (life : Span) : Command Bool :=
  ⟨key, [word "EXPIRE", key, number (wholeSeconds life)],
    fun v => (readInt v).map fun n => decide (n = 1)⟩

/-- The life left to a key; none when there is no such key or its life has no limit. -/
def life (key : Bytes) : Command (Option Span) :=
  ⟨key, [word "TTL", key],
    fun v => (readInt v).map fun n => if 0 ≤ n then some (.ofSeconds n.toNat) else none⟩

def increaseBy (key : Bytes) (delta : Int) : Command Int :=
  ⟨key, [word "INCRBY", key, number delta], readInt⟩

/-- Has the owner of a message send it back. -/
def echo (message : Bytes) : Command Bytes :=
  ⟨message, [word "ECHO", message], reading Reply.toBytes⟩

def getField (key field : Bytes) : Command (Option Bytes) :=
  ⟨key, [word "HGET", key, field], readOptionalBytes⟩

/-- Whether the field is a new one. -/
def setField (key field value : Bytes) : Command Bool :=
  ⟨key, [word "HSET", key, field, value], fun v => (readInt v).map fun n => decide (n = 1)⟩

/-- Sets a value in its stored form. -/
def setStored (s : Codec.Shape) (key : Bytes) (v : s.Carrier) : Command Unit :=
  set key (Codec.encode s v)

/-- Gets a value from its stored form. -/
def getStored (s : Codec.Shape) (key : Bytes) : Command (Option s.Carrier) :=
  ⟨key, (get key).request, fun v => do
    match ← readOptionalBytes v with
    | none => return none
    | some bytes => some <$> (Codec.decode s bytes).mapError Codec.Flaw.fault⟩

end Command
end Shardway
