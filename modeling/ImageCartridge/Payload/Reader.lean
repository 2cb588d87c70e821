import ImageCartridge.Error

/-! Reading a block payload from front to back. Every failure names the payload
kind and the offset it arose at. -/
namespace ImageCartridge.Payload

/-- What is left of a payload. The offset counts the bytes read so far, so that
offset and rest always make up the whole payload. -/
structure Reader where
  kind : String
  size : Nat
  offset : Nat
  rest : Bytes
  offset_add_rest : offset + rest.length = size

/-- An action that reads from a payload. Also an action that fails leaves a reader. -/
abbrev Read := ExceptT SchemaError (StateM Reader)

namespace Reader

def ofBytes (kind : String) (bytes : Bytes) : Reader where
  kind := kind
  size := bytes.length
  offset := 0
  rest := bytes
  offset_add_rest := by simp

/-- Read the next bytes. Fails if they end behind the payload, and the reader stays where
it is then. An end that no machine word can hold lies behind every payload. -/
def take (n : Nat) : Read Bytes := fun r =>
  let stop := r.offset + n
  if h : stop ≤ r.size then
    (.ok (r.rest.take n), { r with
      offset := stop
      rest := r.rest.drop n
      offset_add_rest := by
        have hTotal := r.offset_add_rest
        rw [List.length_drop]
        omega })
  else (.error (.truncated r.kind r.offset n r.size), r)

def byte : Read UInt8 :=
  return UInt8.ofNat (BigEndian.value (← take 1))

def word16 : Read UInt16 :=
  return UInt16.ofNat (BigEndian.value (← take 2))

def word32 : Read UInt32 :=
  return UInt32.ofNat (BigEndian.value (← take 4))

/-- Fails if anything is left over. -/
def finish (r : Reader) : Except SchemaError Unit :=
  if r.rest.isEmpty then .ok () else .error (.trailingBytes r.kind r.rest.length)

/-- What comes of an action, and the reader it leaves. -/
def apply {α : Type} (r : Reader) (action : Read α) : Except SchemaError α × Reader :=
  (action.run.run r).run

/-- Read a whole payload: the action must not leave anything over. -/
def decode {α : Type} (kind : String) (action : Read α) (bytes : Bytes) : Except SchemaError α := do
  let (outcome, r) := (ofBytes kind bytes).apply action
  let value ← outcome
  r.finish
  return value

end Reader

end ImageCartridge.Payload
