import ImageCartridge.Proofs.XorShift
import Mathlib.Algebra.Order.BigOperators.Group.List
import Mathlib.Algebra.Order.Ring.Nat

/-! One stream of words serves all draws. Each draw takes the words that come next, as many
as it needs, and leaves the generator at the last of them. -/
namespace ImageCartridge.XorShift

/-- A generator of which nothing has been drawn. -/
inductive Seeded : XorShift → Prop where
  | ofSeed (seed : UInt32) : Seeded (.ofSeed seed)
  | ofOsId (osId : UInt32) : Seeded (.ofOsId osId)
  | ofBytes (seed : Bytes) : Seeded (.ofBytes seed)

/-- What can be drawn at a time. There is one way to draw a word and one to draw bytes, also
for a caller who is prepared for a failure: the generator has none. -/
inductive Draw where
  | word
  | double
  | bytes (count : Nat)

inductive Drawn where
  | word (value : UInt32)
  | double (value : UInt64)
  | bytes (value : Bytes)
  deriving DecidableEq

/-- What a draw gives, and the generator behind it. -/
def draw (rng : XorShift) : Draw → Drawn × XorShift
  | .word =>
      let (value, rng) := rng.advance
      (.word value, rng)
  | .double =>
      let (value, rng) := rng.next64
      (.double value, rng)
  | .bytes count =>
      let (value, rng) := rng.fill count
      (.bytes value, rng)

def drawAll (rng : XorShift) : List Draw → List Drawn × XorShift
  | [] => ([], rng)
  | request :: requests =>
      let (first, rng) := rng.draw request
      let (others, rng) := rng.drawAll requests
      (first :: others, rng)

/-- The stream from here on, up to some length: the words that come when only words are
drawn. -/
def words (rng : XorShift) : Nat → List UInt32
  | 0 => []
  | count + 1 => rng.advance.1 :: rng.advance.2.words count

/-- How many words a draw takes. The last word of a stretch of bytes may be used in part. -/
def Draw.cost : Draw → Nat
  | .word => 1
  | .double => 2
  | .bytes count => (count + 3) / 4

/-- The bytes of a word, its low byte first. -/
def octets (word : UInt32) : Bytes :=
  (List.range 4).map fun place => UInt8.ofNat (word.toNat / 256 ^ place)

/-- What becomes of the words that a draw takes. -/
inductive Makes : Draw → List UInt32 → Drawn → Prop where
  | word (word : UInt32) : Makes .word [word] (.word word)
  | double {low high : UInt32} {value : UInt64}
      (hValue : value.toNat = low.toNat + 2 ^ 32 * high.toNat) :
      Makes .double [low, high] (.double value)
  | bytes {count : Nat} {words : List UInt32} (hWords : words.length = (count + 3) / 4) :
      Makes (.bytes count) words (.bytes ((words.flatMap octets).take count))

/-- The words fall into pieces, one behind the other, and each draw is made of its piece. -/
inductive Splits : List Draw → List UInt32 → List Drawn → Prop where
  | nil : Splits [] [] []
  | cons {request : Draw} {piece : List UInt32} {value : Drawn} {requests : List Draw}
      {words : List UInt32} {values : List Drawn} (first : Makes request piece value)
      (others : Splits requests words values) :
      Splits (request :: requests) (piece ++ words) (value :: values)

/-- All three ways to seed a generator keep it from zero. -/
theorem Seeded.state_ne_zero {rng : XorShift} (h : Seeded rng) : rng.state ≠ 0 := by
  cases h <;> exact ofSeed_state_ne_zero _

@[simp] theorem length_words (rng : XorShift) (count : Nat) : (rng.words count).length = count := by
  induction count generalizing rng with
  | zero => rfl
  | succ count ih => rw [words, List.length_cons, ih]

/-- The stream goes on where its first words end. -/
theorem words_add (rng : XorShift) (first second : Nat) :
    rng.words (first + second) = rng.words first ++ (rng.skip first).words second := by
  induction first generalizing rng with
  | zero => rw [Nat.zero_add]; rfl
  | succ first ih =>
      rw [Nat.succ_add, words, ih, words, List.cons_append]
      rfl

/-- A generator stands at the last word drawn, or still at its seed. -/
theorem state_skip (rng : XorShift) (count : Nat) :
    (rng.skip count).state = (rng.words count).getLastD rng.state := by
  induction count generalizing rng with
  | zero => rfl
  | succ count ih => rw [skip, ih, words, List.getLastD_cons]; rfl

/-- A stream that begins off zero never comes to it. -/
theorem words_ne_zero {rng : XorShift} (h : rng.state ≠ 0) {count : Nat} {word : UInt32}
    (hWord : word ∈ rng.words count) : word ≠ 0 := by
  induction count generalizing rng with
  | zero => cases hWord
  | succ count ih =>
      rcases List.mem_cons.mp hWord with rfl | hLater
      · exact next_ne_zero h
      · exact ih (advance_state_ne_zero h) hLater

theorem littleEndian_eq_octets (word : UInt32) : littleEndian word = octets word := by
  simp [littleEndian, octets, BigEndian.encode, List.range_succ, Nat.div_div_eq_div_mul]

theorem length_octets (word : UInt32) : (octets word).length = 4 := rfl

/-- The halves of a double word do not overlap. -/
theorem toNat_next64 (rng : XorShift) :
    rng.next64.1.toNat = rng.advance.1.toNat + 2 ^ 32 * rng.advance.2.advance.1.toNat := by
  have hLow := rng.advance.1.toNat_lt
  have hHigh := rng.advance.2.advance.1.toNat_lt
  have hShift : (rng.advance.2.advance.1.toUInt64 <<< 32).toNat =
      rng.advance.2.advance.1.toNat <<< 32 := by
    rw [UInt64.toNat_shiftLeft, UInt32.toNat_toUInt64]
    refine Nat.mod_eq_of_lt ?_
    change rng.advance.2.advance.1.toNat <<< 32 < 2 ^ 64
    rw [Nat.shiftLeft_eq]
    omega
  calc rng.next64.1.toNat
      = ((rng.advance.2.advance.1.toUInt64 <<< 32) ||| rng.advance.1.toUInt64).toNat := rfl
    _ = rng.advance.2.advance.1.toNat <<< 32 + rng.advance.1.toNat := by
        rw [UInt64.toNat_or, hShift, UInt32.toNat_toUInt64, Nat.shiftLeft_add_eq_or_of_lt hLow]
    _ = rng.advance.1.toNat + 2 ^ 32 * rng.advance.2.advance.1.toNat := by
        rw [Nat.shiftLeft_eq, Nat.add_comm, Nat.mul_comm]

/-- Bytes are those of the words taken for them, cut to their number. -/
theorem fill_eq (count : Nat) (rng : XorShift) :
    rng.fill count = (((rng.words ((count + 3) / 4)).flatMap octets).take count,
      rng.skip ((count + 3) / 4)) := by
  fun_induction fill count rng with
  | case1 rng => rfl
  | case2 count rng hCount word next hAdvance rest last hRest ih =>
      -- The last word is taken as a whole, however few of its bytes are asked for.
      have hWords : (count + 3) / 4 = (count - 4 + 3) / 4 + 1 := by omega
      rw [hRest] at ih
      obtain ⟨rfl, rfl⟩ := Prod.mk.inj ih
      obtain ⟨rfl, rfl⟩ := Prod.mk.inj hAdvance
      rw [hWords, words, List.flatMap_cons, List.take_append, length_octets, littleEndian_eq_octets]
      rfl

/-- A draw takes as many words as it costs, and is made of these. -/
theorem draw_eq (rng : XorShift) (request : Draw) :
    (rng.draw request).2 = rng.skip request.cost ∧
      Makes request (rng.words request.cost) (rng.draw request).1 := by
  cases request with
  | word => exact ⟨rfl, .word _⟩
  | double => exact ⟨rfl, .double (toNat_next64 rng)⟩
  | bytes count =>
      rw [draw, fill_eq]
      exact ⟨rfl, .bytes (length_words rng _)⟩

/-- The costs of draws add up, and their pieces stand one behind the other. -/
theorem drawAll_eq (rng : XorShift) (requests : List Draw) :
    (rng.drawAll requests).2 = rng.skip (requests.map Draw.cost).sum ∧
      Splits requests (rng.words (requests.map Draw.cost).sum) (rng.drawAll requests).1 := by
  induction requests generalizing rng with
  | nil => exact ⟨rfl, .nil⟩
  | cons request requests ih =>
      obtain ⟨hNext, hFirst⟩ := draw_eq rng request
      obtain ⟨hLast, hOthers⟩ := ih (rng.skip request.cost)
      rw [List.map_cons, List.sum_cons, words_add, skip_add, drawAll]
      dsimp only
      rw [hNext]
      exact ⟨hLast, .cons hFirst hOthers⟩

/-- Whatever is drawn from a seeded generator is made of its stream, each draw of the piece
that comes next: a word of one word, a double word of two with the low half first, bytes of as
many words as it takes to hold them. The generator is left at the last word taken, or at its
seed. No word of the stream is zero, and the generator never comes to be zero. -/
theorem drawAll_splits_words {rng : XorShift} (hSeeded : Seeded rng) (requests : List Draw)
    {values : List Drawn} {last : XorShift} (hDraw : rng.drawAll requests = (values, last)) :
    Splits requests (rng.words (requests.map Draw.cost).sum) values ∧
      last.state = (rng.words (requests.map Draw.cost).sum).getLastD rng.state ∧
      last.state ≠ 0 ∧
      ∀ count, ∀ word ∈ rng.words count, word ≠ 0 := by
  obtain ⟨hLast, hSplits⟩ := drawAll_eq rng requests
  rw [hDraw] at hLast hSplits
  dsimp only at hLast
  rw [hLast]
  exact ⟨hSplits, state_skip rng _, state_skip_ne_zero hSeeded.state_ne_zero _,
    fun _ _ => words_ne_zero hSeeded.state_ne_zero⟩

/-- The tag that cancels the salt is a seed of zero, for which the salt stands in. The bytes
use up their first word and begin a second one, whose rest is lost. -/
theorem drawAll_splits_words_saltTag :
    Seeded (.ofOsId salt) ∧
      (ofOsId salt).drawAll [.word, .bytes 5, .double, .bytes 0] =
        ([.word 858826893, .bytes [61, 104, 2, 226, 95], .double 5493629660422269217, .bytes []],
          ⟨1279085329⟩) ∧
      Splits [.word, .bytes 5, .double, .bytes 0]
        [858826893, 3791808573, 1337354335, 3573868833, 1279085329]
        [.word 858826893, .bytes [61, 104, 2, 226, 95], .double 5493629660422269217, .bytes []] := by
  have hDraw : (ofOsId salt).drawAll [.word, .bytes 5, .double, .bytes 0] =
      ([.word 858826893, .bytes [61, 104, 2, 226, 95], .double 5493629660422269217, .bytes []],
        ⟨1279085329⟩) := by
    simp only [drawAll, draw, fill_eq]
    decide
  have hWords : (ofOsId salt).words 5 =
      [858826893, 3791808573, 1337354335, 3573868833, 1279085329] := by decide
  obtain ⟨hSplits, -⟩ := drawAll_splits_words (.ofOsId salt) _ hDraw
  change Splits _ ((ofOsId salt).words 5) _ at hSplits
  rw [hWords] at hSplits
  exact ⟨.ofOsId salt, hDraw, hSplits⟩

end ImageCartridge.XorShift
