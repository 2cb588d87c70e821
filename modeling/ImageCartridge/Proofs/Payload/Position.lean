import ImageCartridge.Proofs.Payload.Decoded

/-! A reader that is asked for one thing after the other, some of which it has not enough
bytes for. What it has given away is always the front of its payload up to its offset. -/
namespace ImageCartridge.Payload.Reader

/-- What a reader may be asked for. An array is a number of bytes that is known beforehand. -/
inductive Request where
  | byte
  | word16
  | word32
  | take (count : Nat)

inductive Reply where
  | byte (value : UInt8)
  | word16 (value : UInt16)
  | word32 (value : UInt32)
  | bytes (value : Bytes)

def Request.width : Request → Nat
  | .byte => 1
  | .word16 => 2
  | .word32 => 4
  | .take count => count

/-- What the bytes asked for stand for. -/
def Request.reply : Request → Bytes → Reply
  | .byte, bytes => .byte (UInt8.ofNat (BigEndian.value bytes))
  | .word16, bytes => .word16 (UInt16.ofNat (BigEndian.value bytes))
  | .word32, bytes => .word32 (UInt32.ofNat (BigEndian.value bytes))
  | .take _, bytes => .bytes bytes

/-- The bytes that a reply stands for. -/
def Reply.slice : Reply → Bytes
  | .byte value => [value]
  | .word16 value => BigEndian.encode 2 value.toNat
  | .word32 value => BigEndian.encode 4 value.toNat
  | .bytes value => value

/-- The read that answers a request. -/
def serve : Request → Read Reply
  | .byte => return .byte (← byte)
  | .word16 => return .word16 (← word16)
  | .word32 => return .word32 (← word32)
  | .take count => return .bytes (← take count)

/-- The answer to a request, and the reader behind it, whether the read failed or not. -/
def ask (r : Reader) (request : Request) : Except SchemaError Reply × Reader :=
  r.apply (serve request)

def askAll (r : Reader) : List Request → List (Except SchemaError Reply) × Reader
  | [] => ([], r)
  | request :: requests =>
      let (first, r) := r.ask request
      let (others, r) := r.askAll requests
      (first :: others, r)

/-- The bytes of all replies there were, in order. -/
def slices (answers : List (Except SchemaError Reply)) : Bytes :=
  answers.flatMap fun
    | .ok reply => reply.slice
    | .error _ => []

theorem slices_cons (answer : Except SchemaError Reply) (answers : List (Except SchemaError Reply)) :
    slices (answer :: answers) = slices [answer] ++ slices answers := by
  simp only [slices, List.flatMap_cons, List.flatMap_nil, List.append_nil]

/-- Every request is served from the bytes it asks for. -/
theorem serve_eq (request : Request) :
    serve request = do return request.reply (← take request.width) := by
  cases request <;>
    simp only [serve, byte, word16, word32, bind_assoc, pure_bind, Request.reply, Request.width]

/-- A value that is made of the bytes asked for still tells these bytes. -/
theorem slice_reply {request : Request} {bytes : Bytes} (h : bytes.length = request.width) :
    (request.reply bytes).slice = bytes := by
  cases request with
  | byte =>
      obtain ⟨b, rfl⟩ := List.length_eq_one_iff.mp h
      simp [Request.reply, Reply.slice, BigEndian.value]
  | word16 =>
      obtain ⟨hLess, hField⟩ := encode_value_of_length h
      rw [Request.width] at hField
      rw [Request.reply, Reply.slice, UInt16.toNat_ofNat_of_lt' hLess, hField]
  | word32 =>
      obtain ⟨hLess, hField⟩ := encode_value_of_length h
      rw [Request.width] at hField
      rw [Request.reply, Reply.slice, UInt32.toNat_ofNat_of_lt' hLess, hField]
  | take count => rfl

/-- A request that can be met moves the reader on by what it asks for. -/
theorem ask_of_le {r : Reader} {request : Request} (h : request.width ≤ r.rest.length) :
    r.ask request = (.ok (request.reply (r.rest.take request.width)), r.skip request.width h) := by
  rw [ask, serve_eq, apply_bind_of_ok (apply_take_of_le h), apply_pure]

/-- A request that cannot be met leaves the reader as it was. -/
theorem ask_of_lt {r : Reader} {request : Request} (h : r.rest.length < request.width) :
    r.ask request = (.error (.truncated r.kind r.offset request.width r.size), r) := by
  rw [ask, serve_eq, apply_bind_of_error (apply_take_of_lt h)]

/-- The reader reads this payload, and what it has left begins at its offset. -/
structure Follows (kind : String) (bytes : Bytes) (r : Reader) : Prop where
  kind_eq : r.kind = kind
  size_eq : r.size = bytes.length
  rest_eq : r.rest = bytes.drop r.offset

section Follows

variable {kind : String} {bytes : Bytes} {r : Reader}

theorem follows_ofBytes (kind : String) (bytes : Bytes) : Follows kind bytes (ofBytes kind bytes) :=
  ⟨rfl, rfl, rfl⟩

/-- A reader never stands behind the end of its payload. -/
theorem Follows.offset_le (h : Follows kind bytes r) : r.offset ≤ bytes.length := by
  rw [← h.size_eq, ← r.offset_add_rest]
  exact Nat.le_add_right _ _

theorem Follows.length_rest (h : Follows kind bytes r) :
    r.rest.length = bytes.length - r.offset := by
  rw [h.rest_eq, List.length_drop]

theorem Follows.skip (h : Follows kind bytes r) {count : Nat} (hCount : count ≤ r.rest.length) :
    Follows kind bytes (r.skip count hCount) :=
  ⟨h.kind_eq, h.size_eq, by rw [rest_skip, offset_skip, h.rest_eq, List.drop_drop]⟩

/-- An answer accounts for the bytes between the offsets before and behind it. -/
theorem Follows.ask (h : Follows kind bytes r) (request : Request) :
    Follows kind bytes (r.ask request).2 ∧
      bytes.take (r.ask request).2.offset =
        bytes.take r.offset ++ slices [(r.ask request).1] := by
  by_cases hFits : request.width ≤ r.rest.length
  · have hSlice := slice_reply (List.length_take_of_le hFits)
    rw [ask_of_le hFits]
    refine ⟨h.skip hFits, ?_⟩
    simp only [slices, List.flatMap_cons, List.flatMap_nil, List.append_nil, hSlice, offset_skip]
    rw [h.rest_eq, ← List.take_add]
  · rw [ask_of_lt (Nat.not_le.mp hFits)]
    exact ⟨h, (List.append_nil _).symm⟩

/-- What holds behind one request holds behind all of them. -/
theorem Follows.askAll (h : Follows kind bytes r) (requests : List Request) :
    Follows kind bytes (r.askAll requests).2 ∧
      bytes.take (r.askAll requests).2.offset =
        bytes.take r.offset ++ slices (r.askAll requests).1 := by
  induction requests generalizing r with
  | nil => exact ⟨h, (List.append_nil _).symm⟩
  | cons request requests ih =>
      obtain ⟨hNext, hFirst⟩ := h.ask request
      obtain ⟨hLast, hOthers⟩ := ih hNext
      rw [hFirst, List.append_assoc, ← slices_cons] at hOthers
      exact ⟨hLast, hOthers⟩

/-- To finish is to compare the offset with the length, which it never exceeds. -/
theorem Follows.finish_eq (h : Follows kind bytes r) :
    r.finish = if r.offset = bytes.length then .ok ()
      else .error (.trailingBytes kind (bytes.length - r.offset)) := by
  have hEnd : r.rest.isEmpty = true ↔ r.offset = bytes.length := by
    have hOffset := h.offset_le
    rw [List.isEmpty_iff_length_eq_zero, h.length_rest]
    omega
  simp only [finish, hEnd, h.length_rest, h.kind_eq]

end Follows

/-- After any requests, of which some may have failed, a reader stands within its payload, and
the bytes it has given are those up to its offset. A request for more than is left fails with
the offset and both lengths and changes nothing, so that any request for less is still served,
from the bytes that come next. Nothing is left over exactly at the end, and elsewhere the bytes
left over are counted. -/
theorem askAll_keeps_place (kind : String) (bytes : Bytes) (requests : List Request)
    {answers : List (Except SchemaError Reply)} {r : Reader}
    (hAsk : (ofBytes kind bytes).askAll requests = (answers, r)) :
    r.offset ≤ bytes.length ∧
      slices answers = bytes.take r.offset ∧
      (∀ request : Request, bytes.length - r.offset < request.width →
        r.ask request =
          (.error (.truncated kind r.offset request.width bytes.length), r)) ∧
      (∀ request : Request, request.width ≤ bytes.length - r.offset → ∃ r',
        r.ask request =
            (.ok (request.reply ((bytes.drop r.offset).take request.width)), r') ∧
          r'.offset = r.offset + request.width) ∧
      r.finish = if r.offset = bytes.length then .ok ()
        else .error (.trailingBytes kind (bytes.length - r.offset)) := by
  obtain ⟨hFollows, hSlices⟩ := (follows_ofBytes kind bytes).askAll requests
  rw [hAsk] at hFollows hSlices
  refine ⟨hFollows.offset_le, hSlices.symm, fun request hShort => ?_, fun request hFits => ?_,
    hFollows.finish_eq⟩
  · rw [← hFollows.length_rest] at hShort
    rw [ask_of_lt hShort, hFollows.kind_eq, hFollows.size_eq]
  · rw [← hFollows.length_rest] at hFits
    rw [ask_of_le hFits, hFollows.rest_eq]
    exact ⟨_, rfl, rfl⟩

/-- Between a word and a byte far too much is asked for, up to the end of what a double word
counts. One byte is left then, which is too little for another word. -/
theorem askAll_keeps_place_fourBytes :
    ∃ r : Reader,
      (ofBytes "sample" [0x12, 0x34, 7, 8]).askAll
          [.word16, .take 18446744073709551615, .byte] =
        ([.ok (.word16 0x1234), .error (.truncated "sample" 2 18446744073709551615 4),
          .ok (.byte 7)], r) ∧
      r.offset = 3 ∧
      slices [.ok (.word16 0x1234), .error (.truncated "sample" 2 18446744073709551615 4),
        .ok (.byte 7)] = [0x12, 0x34, 7] ∧
      r.ask .word16 = (.error (.truncated "sample" 3 2 4), r) ∧
      r.finish = .error (.trailingBytes "sample" 1) := by
  have hWord : (ofBytes "sample" [0x12, 0x34, 7, 8]).ask .word16 =
      (.ok (.word16 0x1234), ⟨"sample", 4, 2, [7, 8], rfl⟩) := rfl
  have hTooMuch : ask ⟨"sample", 4, 2, [7, 8], rfl⟩ (.take 18446744073709551615) =
      (.error (.truncated "sample" 2 18446744073709551615 4), ⟨"sample", 4, 2, [7, 8], rfl⟩) :=
    ask_of_lt (by decide)
  have hByte : ask ⟨"sample", 4, 2, [7, 8], rfl⟩ .byte =
      (.ok (.byte 7), ⟨"sample", 4, 3, [8], rfl⟩) := rfl
  have hAsk : (ofBytes "sample" [0x12, 0x34, 7, 8]).askAll
      [.word16, .take 18446744073709551615, .byte] =
        ([.ok (.word16 0x1234), .error (.truncated "sample" 2 18446744073709551615 4),
          .ok (.byte 7)], ⟨"sample", 4, 3, [8], rfl⟩) := by
    simp only [askAll, hWord, hTooMuch, hByte]
  obtain ⟨-, hSlices, hShort, -, hFinish⟩ := askAll_keeps_place "sample" _ _ hAsk
  exact ⟨_, hAsk, rfl, hSlices, hShort .word16 (by decide), hFinish⟩

end ImageCartridge.Payload.Reader
