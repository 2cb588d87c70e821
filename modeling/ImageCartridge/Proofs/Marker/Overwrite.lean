import ImageCartridge.Proofs.Marker.Splice

/-! Splicing again and again. A file remembers the last cartridge written into it and
none before, and a file that had none comes back when it is taken out. -/
namespace ImageCartridge.Marker

open Fallible

/-- Items that lose nothing when the cartridge is taken out had none. -/
theorem foreign_eq_self_iff {offset : Nat} {items : List Item} :
    foreign items = items ↔ cartridgesFrom offset items = [] := by
  constructor
  · intro h
    rw [← h, cartridgesFrom_foreign]
  · intro h
    induction items generalizing offset with
    | nil => rfl
    | cons item items ih =>
        cases hItem : item.isCartridge with
        | false =>
            rw [cartridgesFrom_cons_of_foreign _ _ hItem] at h
            rw [foreign_cons_of_foreign _ hItem, ih h]
        | true =>
            obtain ⟨t, -, -, -, hCons⟩ := cartridgesFrom_cons_of_isCartridge offset items hItem
            cases hCons.symm.trans h

namespace Stream

variable (s : Stream)

/-- A second cartridge takes the place of the first without a trace of it. -/
theorem withCartridge_withCartridge {first second : List Bytes}
    (hFirst : ∀ payload ∈ first, payload.length ≤ payloadLimit)
    (hMagic : ∀ payload ∈ first, Block.magic.isPrefixOf payload = true)
    (hSecond : ∀ payload ∈ second, payload.length ≤ payloadLimit) :
    (s.withCartridge first hFirst).withCartridge second hSecond =
      s.withCartridge second hSecond := by
  simp only [withCartridge, foreign_foreign_append_map s.items hMagic]

/-- Taking the cartridge out of a stream that has none gives the stream back. -/
theorem withCartridge_nil (h : cartridges s.toBytes = []) :
    s.withCartridge [] (List.forall_mem_nil _) = s := by
  rw [cartridges_toBytes] at h
  have hForeign : foreign s.items = s.items := foreign_eq_self_iff.mpr h
  simp only [withCartridge, hForeign, List.map_nil, List.append_nil]

end Stream

/-- What a file carried before makes no difference to the next cartridge. -/
theorem splice_of_splice {jpeg once : Bytes} {first : List Block}
    (h : splice jpeg first = .ok once) (second : List Block) :
    splice once second = splice jpeg second := by
  obtain ⟨s, payloads, hLimit, rfl, hPayloads, rfl⟩ := exists_withCartridge_of_splice h
  cases hMap : second.mapM segmentPayload with
  | error cause => rw [splice, splice, hMap, error_bind, error_bind]
  | ok others =>
      have hOthers := mapM_eq_ok_iff.mp hMap
      have hFits := (segmentPayloads_facts hOthers).1
      rw [splice_toBytes _ hOthers hFits, splice_toBytes _ hOthers hFits,
        Stream.withCartridge_withCartridge s hLimit (segmentPayloads_facts hPayloads).2.1]

/-- To write no blocks takes the cartridge out, so it leaves just those files alone that have
none. -/
theorem splice_nil_eq_self_iff {jpeg : Bytes} {point : Nat} (hPoint : locate jpeg = .ok point) :
    splice jpeg [] = .ok jpeg ↔ cartridges jpeg = [] := by
  constructor
  · intro h
    exact List.forall₂_nil_left_iff.mp (forall₂_encode_cartridges h)
  · intro h
    obtain ⟨s, rfl, -⟩ := exists_stream_of_locate hPoint
    rw [splice_toBytes s .nil (List.forall_mem_nil _), s.withCartridge_nil h]

/-- The last blocks spliced into a file are the only ones, so splicing the same blocks
again changes nothing. Splicing no blocks takes out those that are there, and leaves
just the files alone that have none. -/
theorem splice_overwrites {jpeg : Bytes} {point : Nat} {first second : List Block}
    (hPoint : locate jpeg = .ok point) (hFirst : ∀ b ∈ first, b.encodedLength ≤ payloadLimit)
    (hSecond : ∀ b ∈ second, b.encodedLength ≤ payloadLimit) :
    ∃ once out, splice jpeg first = .ok once ∧ splice jpeg second = .ok out ∧
      splice once second = .ok out ∧ splice once first = .ok once ∧
      (splice jpeg [] = .ok jpeg ↔ cartridges jpeg = []) ∧
      (cartridges jpeg = [] → splice once [] = .ok jpeg) := by
  obtain ⟨once, hOnce⟩ := exists_splice_eq_ok hPoint hFirst
  obtain ⟨out, hOut⟩ := exists_splice_eq_ok hPoint hSecond
  have hNone := splice_nil_eq_self_iff hPoint
  refine ⟨once, out, hOnce, hOut, ?_, ?_, hNone, fun hEmpty => ?_⟩
  · rw [splice_of_splice hOnce, hOut]
  · rw [splice_of_splice hOnce, hOnce]
  · rw [splice_of_splice hOnce, hNone.mpr hEmpty]

/-- A file with fill, an application segment of another program and no cartridge. -/
def foreignJpeg : Bytes :=
  [0xFF, 0xD8, 0xFF, 0xFF, 0xEB, 0x00, 0x04, 0x4A, 0x50, 0xFF, 0xFF, 0xDA, 0x07]

/-- Two cartridges one after the other, in a file that has fill and a foreign segment. -/
theorem splice_overwrites_foreignJpeg :
    ∃ first second : List Block,
      first = [.new .bytecode [0x40, 0x01], ⟨2, .unknown 0x30, ⟨false, true⟩, []⟩] ∧
      second = [.new .fs [9]] ∧ locate foreignJpeg = .ok 10 ∧
      (∀ b ∈ first, b.encodedLength ≤ payloadLimit) ∧
      (∀ b ∈ second, b.encodedLength ≤ payloadLimit) ∧ cartridges foreignJpeg = [] ∧
      ∃ once out, splice foreignJpeg first = .ok once ∧ splice foreignJpeg second = .ok out ∧
        splice once second = .ok out ∧ splice once first = .ok once ∧
        splice once [] = .ok foreignJpeg := by
  have hPoint : locate foreignJpeg = .ok 10 := by cbv
  have hEmpty : cartridges foreignJpeg = [] := by cbv
  refine ⟨_, _, rfl, rfl, hPoint, by decide, by decide, hEmpty, ?_⟩
  obtain ⟨once, out, hOnce, hOut, hTwice, hAgain, -, hBack⟩ :=
    @splice_overwrites _ _ [.new .bytecode [0x40, 0x01], ⟨2, .unknown 0x30, ⟨false, true⟩, []⟩]
      [.new .fs [9]] hPoint (by decide) (by decide)
  exact ⟨once, out, hOnce, hOut, hTwice, hAgain, hBack hEmpty⟩

end ImageCartridge.Marker
