import Libfabric.Iov

/-! What the I/O vector helpers do to the flat view: the bytes of all segments
one after another. A segment of `iovec`s or `fi_rma_iov`s is seen through the
addresses it names, a segment of bytes through its bytes. The lemmas over the
shared bodies take any segment type whose cut names the addresses it cuts out;
the helpers of each pair are then instances. -/
namespace Libfabric

open Buffer

/-- The addresses an `iovec` names. -/
def Iovec.addrs (iov : Iovec) : List Nat := List.range' iov.iovBase iov.iovLen

/-- The addresses an `fi_rma_iov` names under its key. -/
def FiRmaIov.addrs (iov : FiRmaIov) : List Nat := List.range' iov.addr iov.len

theorem range'_add_eq_take_drop {base n off len : Nat} (fits : off + len ≤ n) :
    List.range' (base + off) len = ((List.range' base n).drop off).take len := by
  rw [List.drop_range', Nat.mul_one, List.take_range'_of_length_ge (by omega)]

section Segments

variable {σ : Type} {segLen : σ → Nat} {slice : σ → Nat → Nat → σ} {segAddrs : σ → List Nat}

/-- What the shared lemmas ask of a segment type: a segment names `segLen`
addresses, and a cut names the addresses it cuts out. -/
structure Cuts (segLen : σ → Nat) (slice : σ → Nat → Nat → σ) (segAddrs : σ → List Nat) : Prop where
  length : ∀ seg, (segAddrs seg).length = segLen seg
  slice : ∀ seg off len, off + len ≤ segLen seg →
    segAddrs (slice seg off len) = ((segAddrs seg).drop off).take len

theorem iovec_cuts : Cuts Iovec.iovLen Iovec.slice Iovec.addrs where
  length _ := List.length_range'
  slice _ _ _ fits := range'_add_eq_take_drop fits

theorem fiRmaIov_cuts : Cuts FiRmaIov.len FiRmaIov.slice FiRmaIov.addrs where
  length _ := List.length_range'
  slice _ _ _ fits := range'_add_eq_take_drop fits

/-- The length of the segment a cursor of the copy helpers stands in; `0`
past the last one. -/
def headLen (segLen : σ → Nat) : List σ → Nat
  | [] => 0
  | seg :: _ => segLen seg

/-- A cursor `(*index, *offset)` the copy helpers accept: inside segment
`index`, at most at its end, or `(src_count, 0)` past the last segment. -/
structure CursorOk (segLen : σ → Nat) (src : List σ) (index offset : Nat) : Prop where
  index_le : index ≤ src.length
  offset_le : offset ≤ headLen segLen (src.drop index)

/-- The flat position a cursor stands at. -/
def cursorPos (segLen : σ → Nat) (src : List σ) (index offset : Nat) : Nat :=
  ((src.take index).map segLen).sum + offset

variable (cuts : Cuts segLen slice segAddrs)
include cuts

theorem Cuts.length_flatMap (segs : List σ) : (segs.flatMap segAddrs).length = (segs.map segLen).sum := by
  simp only [List.length_flatMap, cuts.length]

theorem Cuts.slice_rest (seg : σ) {off : Nat} (inside : off ≤ segLen seg) :
    segAddrs (slice seg off (segLen seg - off)) = (segAddrs seg).drop off := by
  rw [cuts.slice seg off _ (by omega), List.take_of_length_le]
  simp only [List.length_drop, cuts.length]
  omega

/-! ### Consuming -/

omit cuts in
theorem consumeLoop_none {segs : List σ} {acc toConsume : Nat}
    (h : consumeLoop segLen segs acc toConsume = none) : (segs.map segLen).sum ≤ toConsume := by
  induction segs generalizing acc toConsume with
  | nil => simp
  | cons seg rest ih =>
      simp only [consumeLoop] at h
      split at h
      · have := ih h
        simp only [List.map_cons, List.sum_cons]
        omega
      · cases h

/-- Where the loop of the consume helpers stops: `n` segments on, `left`
bytes into a segment it does not cover, which is where the flat view cut by
`to_consume` starts. -/
theorem consumeLoop_some {segs : List σ} {acc toConsume dropped left : Nat}
    (h : consumeLoop segLen segs acc toConsume = some (dropped, left)) :
    ∃ n seg rest, dropped = acc + n ∧ segs.drop n = seg :: rest ∧ left < segLen seg ∧
      (segs.flatMap segAddrs).drop toConsume = (segAddrs seg).drop left ++ rest.flatMap segAddrs := by
  induction segs generalizing acc toConsume with
  | nil => simp [consumeLoop] at h
  | cons seg rest ih =>
      simp only [consumeLoop] at h
      have length := cuts.length seg
      split at h
      · -- `to_consume` covers this segment: it is dropped
        rename_i covers
        obtain ⟨n, seg', rest', rfl, tail, short, flat⟩ := ih h
        refine ⟨n + 1, seg', rest', by omega, tail, short, ?_⟩
        rw [List.flatMap_cons, List.drop_append, List.drop_eq_nil_of_le (by omega), List.nil_append,
          length, flat]
      · rename_i short
        simp only [Option.some.injEq, Prod.mk.injEq] at h
        obtain ⟨rfl, rfl⟩ := h
        refine ⟨0, seg, rest, rfl, rfl, by omega, ?_⟩
        rw [List.flatMap_cons, List.drop_append_of_le_length (by omega)]

/-- `ofi_consume_iov_desc` and `ofi_consume_rma_iov`: what is left of the
segments is the flat view without its first `to_consume` bytes, and it is
made of the segments from some `d` on, the first one cut. -/
theorem consumeSegs_spec (segs : List σ) {toConsume : Nat} (within : toConsume ≤ (segs.map segLen).sum) :
    (consumeSegs segLen slice segs toConsume).2.flatMap segAddrs = (segs.flatMap segAddrs).drop toConsume ∧
      ((consumeSegs segLen slice segs toConsume).2 = [] ∨
        ∃ seg rest off, segs.drop (consumeSegs segLen slice segs toConsume).1 = seg :: rest ∧
          off < segLen seg ∧ (consumeSegs segLen slice segs toConsume).2 = slice seg off (segLen seg - off) :: rest) := by
  unfold consumeSegs
  split
  · -- one segment is cut directly
    rename_i seg
    simp only [List.map_cons, List.map_nil, List.sum_cons, List.sum_nil, Nat.add_zero] at within
    by_cases whole : segLen seg = toConsume
    · rw [if_pos whole]
      refine ⟨?_, .inl rfl⟩
      rw [List.flatMap_nil, List.drop_eq_nil_of_le]
      simp [cuts.length, whole]
    · rw [if_neg whole]
      refine ⟨?_, .inr ⟨seg, [], toConsume, rfl, by omega, rfl⟩⟩
      simp [cuts.slice_rest seg within]
  · split
    · -- every segment is covered
      rename_i none
      have covered := consumeLoop_none none
      refine ⟨?_, .inl rfl⟩
      rw [List.flatMap_nil, List.drop_eq_nil_of_le (by rw [cuts.length_flatMap]; omega)]
    · rename_i dropped left loop
      obtain ⟨n, seg, rest, rfl, tail, short, flat⟩ := consumeLoop_some cuts loop
      simp only [Nat.zero_add, tail]
      refine ⟨?_, .inr ⟨seg, rest, left, rfl, short, rfl⟩⟩
      rw [List.flatMap_cons, cuts.slice_rest seg (Nat.le_of_lt short), flat]

/-! ### Copying from a cursor -/

omit cuts in
theorem sum_take_add_sum_drop (src : List σ) (index : Nat) :
    ((src.take index).map segLen).sum + ((src.drop index).map segLen).sum = (src.map segLen).sum := by
  rw [← List.sum_append, ← List.map_append, List.take_append_drop]

omit cuts in
theorem copySegsLoop_none {L : List σ} {j offset len : Nat} (room : offset ≤ headLen segLen L)
    (beyond : (L.map segLen).sum < offset + len) : (copySegsLoop segLen slice L j offset len).2 = none := by
  induction L generalizing j offset len with
  | nil => rfl
  | cons seg rest ih =>
      simp only [headLen] at room
      simp only [List.map_cons, List.sum_cons] at beyond
      simp only [copySegsLoop]
      rw [if_neg (by omega)]
      exact ih (Nat.zero_le _) (by omega)

omit cuts in
theorem copySegsLoop_some {L : List σ} {j offset len : Nat} (room : offset ≤ headLen segLen L)
    (within : offset + len ≤ (L.map segLen).sum) (nonempty : L ≠ []) :
    ∃ n off, (copySegsLoop segLen slice L j offset len).2 = some (j + n, off) ∧
      CursorOk segLen L n off ∧ ((L.take n).map segLen).sum + off = offset + len := by
  induction L generalizing j offset len with
  | nil => exact absurd rfl nonempty
  | cons seg rest ih =>
      simp only [headLen] at room
      simp only [List.map_cons, List.sum_cons] at within
      simp only [copySegsLoop]
      by_cases fits : len ≤ segLen seg - offset
      · rw [if_pos fits]
        by_cases whole : len = segLen seg - offset
        · -- the copy ends at the end of this segment: the cursor moves to the next one
          rw [if_pos whole]
          refine ⟨1, 0, rfl, ⟨by simp, Nat.zero_le _⟩, ?_⟩
          simp only [List.take_succ_cons, List.take_zero, List.map_cons, List.map_nil, List.sum_cons,
            List.sum_nil]
          omega
        · rw [if_neg whole]
          refine ⟨0, offset + len, rfl, ⟨by simp, by simp only [List.drop_zero, headLen]; omega⟩, by simp⟩
      · rw [if_neg fits]
        have more : rest ≠ [] := by
          rintro rfl
          simp only [List.map_nil, List.sum_nil] at within
          omega
        have within' : 0 + (len - (segLen seg - offset)) ≤ (rest.map segLen).sum := by omega
        obtain ⟨n, off, loop, cursor, pos⟩ := ih (j := j + 1) (Nat.zero_le _) within' more
        refine ⟨n + 1, off, ?_, ⟨by simpa using cursor.index_le, by simpa using cursor.offset_le⟩, ?_⟩
        · rw [loop]
          simp only [Option.some.injEq, Prod.mk.injEq, and_true]
          omega
        · simp only [List.take_succ_cons, List.map_cons, List.sum_cons]
          omega

theorem flatMap_copySegsLoop {L : List σ} {j offset len : Nat} (room : offset ≤ headLen segLen L) :
    (copySegsLoop segLen slice L j offset len).1.flatMap segAddrs = ((L.flatMap segAddrs).drop offset).take len := by
  induction L generalizing j offset len with
  | nil => simp [copySegsLoop]
  | cons seg rest ih =>
      simp only [headLen] at room
      have length := cuts.length seg
      have front : ((seg :: rest).flatMap segAddrs).drop offset =
          (segAddrs seg).drop offset ++ rest.flatMap segAddrs := by
        rw [List.flatMap_cons, List.drop_append_of_le_length (by omega)]
      rw [front]
      simp only [copySegsLoop]
      split
      · rename_i fits
        rw [List.flatMap_cons, List.flatMap_nil, List.append_nil, cuts.slice seg offset len (by omega),
          List.take_append_of_le_length (by simp only [List.length_drop]; omega)]
      · -- the segment is copied to its end and the rest from the next one
        rename_i spills
        have short : ((segAddrs seg).drop offset).length ≤ len := by
          simp only [List.length_drop]
          omega
        rw [List.flatMap_cons, cuts.slice_rest seg room, ih (Nat.zero_le _), List.drop_zero, List.take_append,
          List.take_of_length_le short, List.length_drop, length]

omit cuts in
theorem copySegs_dst (src : List σ) (index offset len : Nat) :
    (copySegs segLen slice src index offset len).2.1 =
      (copySegsLoop segLen slice (src.drop index) index offset len).1 := by
  unfold copySegs
  dsimp only
  rcases (copySegsLoop segLen slice (src.drop index) index offset len).2 with _ | ⟨index', offset'⟩ <;> rfl

theorem flatMap_copySegs {src : List σ} {index offset : Nat} (cursor : CursorOk segLen src index offset)
    (len : Nat) :
    (copySegs segLen slice src index offset len).2.1.flatMap segAddrs =
      ((src.flatMap segAddrs).drop (cursorPos segLen src index offset)).take len := by
  have before : ((src.take index).flatMap segAddrs).length = ((src.take index).map segLen).sum :=
    cuts.length_flatMap _
  have whole : src.flatMap segAddrs = (src.take index).flatMap segAddrs ++ (src.drop index).flatMap segAddrs := by
    rw [← List.flatMap_append, List.take_append_drop]
  rw [copySegs_dst, flatMap_copySegsLoop cuts cursor.offset_le, cursorPos, whole, ← before,
    List.drop_length_add_append]

omit cuts in
theorem copySegs_ok {src : List σ} {index offset len : Nat} (cursor : CursorOk segLen src index offset)
    (inside : index < src.length) (within : cursorPos segLen src index offset + len ≤ (src.map segLen).sum) :
    ∃ index' offset', copySegs segLen slice src index offset len =
        (0, (copySegsLoop segLen slice (src.drop index) index offset len).1, index', offset') ∧
      CursorOk segLen src index' offset' ∧
      cursorPos segLen src index' offset' = cursorPos segLen src index offset + len := by
  have split : ((src.take index).map segLen).sum + ((src.drop index).map segLen).sum = (src.map segLen).sum :=
    sum_take_add_sum_drop src index
  have more : src.drop index ≠ [] := by simp only [ne_eq, List.drop_eq_nil_iff]; omega
  have within' : offset + len ≤ ((src.drop index).map segLen).sum := by
    unfold cursorPos at within
    omega
  obtain ⟨n, off, loop, cursorL, pos⟩ := @copySegsLoop_some σ segLen slice _ index offset len cursor.offset_le
    within' more
  refine ⟨index + n, off, ?_, ⟨?_, ?_⟩, ?_⟩
  · unfold copySegs
    simp [loop]
  · have := cursorL.index_le
    simp only [List.length_drop] at this
    omega
  · simpa only [List.drop_drop] using cursorL.offset_le
  · rw [cursorPos, cursorPos, List.take_add, List.map_append, List.sum_append]
    omega

omit cuts in
theorem copySegs_tooSmall {src : List σ} {index offset len : Nat} (cursor : CursorOk segLen src index offset)
    (inside : index < src.length) (beyond : (src.map segLen).sum < cursorPos segLen src index offset + len) :
    copySegs segLen slice src index offset len =
      (-fiEtoosmall, (copySegsLoop segLen slice (src.drop index) index offset len).1, index, 0) := by
  have split : ((src.take index).map segLen).sum + ((src.drop index).map segLen).sum = (src.map segLen).sum :=
    sum_take_add_sum_drop src index
  have beyond' : ((src.drop index).map segLen).sum < offset + len := by
    unfold cursorPos at beyond
    omega
  have loop := @copySegsLoop_none σ segLen slice _ index offset len cursor.offset_le beyond'
  unfold copySegs
  simp [loop, inside]

omit cuts in
theorem copySegs_atEnd {src : List σ} {index : Nat} (past : src.length ≤ index) (offset len : Nat) :
    copySegs segLen slice src index offset len = (-fiEtoosmall, [], index, offset) := by
  unfold copySegs
  rw [List.drop_eq_nil_of_le past]
  simp only [copySegsLoop]
  rw [if_neg (by omega)]

omit cuts in
theorem copySegs_step {src : List σ} {index offset len : Nat} (cursor : CursorOk segLen src index offset)
    (within : cursorPos segLen src index offset + len ≤ (src.map segLen).sum) :
    ∃ index' offset', (copySegs segLen slice src index offset len).2.2 = (index', offset') ∧
      CursorOk segLen src index' offset' ∧
      cursorPos segLen src index' offset' = cursorPos segLen src index offset + len ∧
      ((copySegs segLen slice src index offset len).1 = 0 ∨
        ((copySegs segLen slice src index offset len).1 = -fiEtoosmall ∧ len = 0)) := by
  by_cases inside : index < src.length
  · obtain ⟨index', offset', call, cursor', pos⟩ := @copySegs_ok σ segLen slice _ _ _ _ cursor inside within
    rw [call]
    exact ⟨index', offset', rfl, cursor', pos, .inl rfl⟩
  · -- past the last segment the cursor is `(src_count, 0)`, at the total
    have atEnd : index = src.length := by have := cursor.index_le; omega
    have zero : offset = 0 := by
      have := cursor.offset_le
      rw [atEnd, List.drop_length] at this
      exact Nat.le_zero.mp this
    have total : cursorPos segLen src index offset = (src.map segLen).sum := by
      rw [cursorPos, atEnd, zero, List.take_length, Nat.add_zero]
    rw [copySegs_atEnd (Nat.le_of_not_lt inside)]
    exact ⟨index, offset, rfl, cursor, by omega, .inr ⟨rfl, by omega⟩⟩

theorem copyRun_pieces {src : List σ} {index offset : Nat} (cursor : CursorOk segLen src index offset)
    {lens : List Nat} (within : cursorPos segLen src index offset + lens.sum ≤ (src.map segLen).sum) :
    (copyRun segLen slice src index offset lens).map (fun r => r.2.flatMap segAddrs) =
      pieces (src.flatMap segAddrs) (cursorPos segLen src index offset) lens := by
  induction lens generalizing index offset with
  | nil => rfl
  | cons len lens ih =>
      simp only [List.sum_cons] at within
      obtain ⟨index', offset', next, cursor', pos', -⟩ := @copySegs_step σ segLen slice _ _ _ len cursor
        (by omega)
      simp only [copyRun, List.map_cons, pieces, next]
      rw [flatMap_copySegs cuts cursor, ih cursor' (by omega), pos']

omit cuts in
theorem copyRun_ret {src : List σ} {index offset : Nat} (cursor : CursorOk segLen src index offset)
    {lens : List Nat} (within : cursorPos segLen src index offset + lens.sum ≤ (src.map segLen).sum) :
    ∀ r ∈ (copyRun segLen slice src index offset lens).zip lens,
      r.1.1 = 0 ∨ (r.1.1 = -fiEtoosmall ∧ r.2 = 0) := by
  induction lens generalizing index offset with
  | nil => simp [copyRun]
  | cons len lens ih =>
      simp only [List.sum_cons] at within
      obtain ⟨index', offset', next, cursor', pos', ret⟩ := @copySegs_step σ segLen slice _ _ _ len cursor
        (by omega)
      simp only [copyRun, next, List.zip_cons_cons, List.mem_cons, forall_eq_or_imp]
      exact ⟨ret, ih cursor' (by omega)⟩

omit cuts in
theorem copySegs_ret_eq_zero_iff {src : List σ} {index offset len : Nat}
    (cursor : CursorOk segLen src index offset) (inside : index < src.length) :
    (copySegs segLen slice src index offset len).1 = 0 ↔
      cursorPos segLen src index offset + len ≤ (src.map segLen).sum := by
  constructor
  · intro ok
    by_contra beyond
    rw [copySegs_tooSmall cursor inside (by omega)] at ok
    simp [fiEtoosmall] at ok
  · intro within
    obtain ⟨index', offset', call, -⟩ := @copySegs_ok σ segLen slice _ _ _ _ cursor inside within
    rw [call]

end Segments

/-! ### The `iovec` and `fi_rma_iov` helpers -/

/-- `ofi_consume_iov_desc`: the `iovec`s left name the flat view without its
first `to_consume` bytes, and each descriptor left still stands beside the
segment it described. -/
theorem ofiConsumeIovDesc_spec {D : Type} (iov : List Iovec) (desc : Option (List D)) {toConsume : Nat}
    (within : toConsume ≤ (iov.map Iovec.iovLen).sum) :
    (ofiConsumeIovDesc iov desc toConsume).1.flatMap Iovec.addrs = (iov.flatMap Iovec.addrs).drop toConsume ∧
      ((ofiConsumeIovDesc iov desc toConsume).1 = [] ∨
        ∃ d seg rest off, iov.drop d = seg :: rest ∧ off < seg.iovLen ∧
          (ofiConsumeIovDesc iov desc toConsume).1 = seg.slice off (seg.iovLen - off) :: rest ∧
          (ofiConsumeIovDesc iov desc toConsume).2 = desc.map (·.drop d)) := by
  obtain ⟨flat, left⟩ := consumeSegs_spec iovec_cuts iov within
  refine ⟨flat, ?_⟩
  rcases left with gone | ⟨seg, rest, off, tail, short, cut⟩
  · exact .inl gone
  · refine .inr ⟨_, seg, rest, off, tail, short, cut, ?_⟩
    simp [ofiConsumeIovDesc, cut]

theorem flatMap_ofiConsumeRmaIov (rmaIov : List FiRmaIov) {toConsume : Nat}
    (within : toConsume ≤ (rmaIov.map FiRmaIov.len).sum) :
    (ofiConsumeRmaIov rmaIov toConsume).flatMap FiRmaIov.addrs = (rmaIov.flatMap FiRmaIov.addrs).drop toConsume :=
  (consumeSegs_spec fiRmaIov_cuts rmaIov within).1

theorem flatMap_ofiTruncateIov (iov : List Iovec) (newSize : Nat) :
    (ofiTruncateIov iov newSize).2.flatMap Iovec.addrs = (iov.flatMap Iovec.addrs).take newSize := by
  induction iov generalizing newSize with
  | nil => simp [ofiTruncateIov]
  | cons seg rest ih =>
      have length : seg.addrs.length = seg.iovLen := List.length_range'
      simp only [ofiTruncateIov]
      split
      · rename_i fits
        have cut : seg.addrs.take newSize = (⟨seg.iovBase, newSize⟩ : Iovec).addrs :=
          List.take_range'_of_length_ge fits
        rw [List.flatMap_cons, List.flatMap_nil, List.append_nil, List.flatMap_cons,
          List.take_append_of_le_length (show newSize ≤ seg.addrs.length by omega), cut]
      · rename_i beyond
        rw [List.flatMap_cons, List.flatMap_cons, ih, List.take_append,
          List.take_of_length_le (show seg.addrs.length ≤ newSize by omega), length]

theorem ofiTruncateIov_ret (iov : List Iovec) (newSize : Nat) :
    (ofiTruncateIov iov newSize).1 = if newSize ≤ (iov.map Iovec.iovLen).sum then 0 else -fiEtrunc := by
  induction iov generalizing newSize with
  | nil =>
      by_cases zero : newSize = 0
      · simp [ofiTruncateIov, zero]
      · simp [ofiTruncateIov, zero]
  | cons seg rest ih =>
      simp only [ofiTruncateIov, List.map_cons, List.sum_cons]
      split
      · rename_i fits
        rw [if_pos (by omega)]
      · rename_i beyond
        rw [ih]
        by_cases within : newSize - seg.iovLen ≤ (rest.map Iovec.iovLen).sum
        · rw [if_pos within, if_pos (by omega)]
        · rw [if_neg within, if_neg (by omega)]

/-- The cursor helpers of `iov.c` against the flat view: consuming drops
its front with each descriptor left beside its segment, truncating keeps its
front, and copies from a cursor write consecutive pieces of it, failing
exactly when a request runs past its end. -/
theorem iov_cursor_ops_flat {D : Type} :
    (∀ (iov : List Iovec) (desc : Option (List D)) (toConsume : Nat),
      toConsume ≤ (iov.map Iovec.iovLen).sum →
      (ofiConsumeIovDesc iov desc toConsume).1.flatMap Iovec.addrs = (iov.flatMap Iovec.addrs).drop toConsume ∧
        ((ofiConsumeIovDesc iov desc toConsume).1 = [] ∨
          ∃ d seg rest off, iov.drop d = seg :: rest ∧ off < seg.iovLen ∧
            (ofiConsumeIovDesc iov desc toConsume).1 = seg.slice off (seg.iovLen - off) :: rest ∧
            (ofiConsumeIovDesc iov desc toConsume).2 = desc.map (·.drop d))) ∧
    (∀ (iov : List Iovec) (newSize : Nat),
      (ofiTruncateIov iov newSize).2.flatMap Iovec.addrs = (iov.flatMap Iovec.addrs).take newSize ∧
        (ofiTruncateIov iov newSize).1 = if newSize ≤ (iov.map Iovec.iovLen).sum then 0 else -fiEtrunc) ∧
    (∀ (src : List Iovec) (index offset : Nat), CursorOk Iovec.iovLen src index offset →
      (∀ (desc : Option (List D)) (len : Nat), index < src.length →
        ((ofiCopyIovDesc src desc index offset len).1.1 = 0 ↔
          cursorPos Iovec.iovLen src index offset + len ≤ (src.map Iovec.iovLen).sum)) ∧
      ∀ lens : List Nat, cursorPos Iovec.iovLen src index offset + lens.sum ≤ (src.map Iovec.iovLen).sum →
        (copyRun Iovec.iovLen Iovec.slice src index offset lens).map (fun r => r.2.flatMap Iovec.addrs) =
            pieces (src.flatMap Iovec.addrs) (cursorPos Iovec.iovLen src index offset) lens ∧
          ∀ r ∈ (copyRun Iovec.iovLen Iovec.slice src index offset lens).zip lens,
            r.1.1 = 0 ∨ (r.1.1 = -fiEtoosmall ∧ r.2 = 0)) ∧
    (∀ (src : List FiRmaIov) (index offset : Nat), CursorOk FiRmaIov.len src index offset →
      (∀ len : Nat, index < src.length →
        ((ofiCopyRmaIov src index offset len).1 = 0 ↔
          cursorPos FiRmaIov.len src index offset + len ≤ (src.map FiRmaIov.len).sum)) ∧
      ∀ lens : List Nat, cursorPos FiRmaIov.len src index offset + lens.sum ≤ (src.map FiRmaIov.len).sum →
        (copyRun FiRmaIov.len FiRmaIov.slice src index offset lens).map (fun r => r.2.flatMap FiRmaIov.addrs) =
            pieces (src.flatMap FiRmaIov.addrs) (cursorPos FiRmaIov.len src index offset) lens ∧
          ∀ r ∈ (copyRun FiRmaIov.len FiRmaIov.slice src index offset lens).zip lens,
            r.1.1 = 0 ∨ (r.1.1 = -fiEtoosmall ∧ r.2 = 0)) := by
  refine ⟨fun iov desc _ within => ofiConsumeIovDesc_spec iov desc within,
    fun iov newSize => ⟨flatMap_ofiTruncateIov iov newSize, ofiTruncateIov_ret iov newSize⟩, ?_, ?_⟩
  · intro src index offset cursor
    exact ⟨fun _ _ inside => copySegs_ret_eq_zero_iff cursor inside,
      fun _ within => ⟨copyRun_pieces iovec_cuts cursor within, copyRun_ret cursor within⟩⟩
  · intro src index offset cursor
    exact ⟨fun _ inside => copySegs_ret_eq_zero_iff cursor inside,
      fun _ within => ⟨copyRun_pieces fiRmaIov_cuts cursor within, copyRun_ret cursor within⟩⟩

theorem iov_cursor_ops_flat_sample :
    (ofiConsumeIovDesc [⟨4096, 4⟩, ⟨8192, 2⟩] (some [7, 9]) 5).1.flatMap Iovec.addrs =
        (([⟨4096, 4⟩, ⟨8192, 2⟩] : List Iovec).flatMap Iovec.addrs).drop 5 ∧
      (copyRun FiRmaIov.len FiRmaIov.slice [⟨4096, 4, 1⟩, ⟨8192, 2, 1⟩] 0 0 [3, 3]).map
          (fun r => r.2.flatMap FiRmaIov.addrs) =
        pieces (([⟨4096, 4, 1⟩, ⟨8192, 2, 1⟩] : List FiRmaIov).flatMap FiRmaIov.addrs)
          (cursorPos FiRmaIov.len [⟨4096, 4, 1⟩, ⟨8192, 2, 1⟩] 0 0) [3, 3] :=
  ⟨((iov_cursor_ops_flat (D := Nat)).1 _ (some [7, 9]) 5 (by decide)).1,
    (((iov_cursor_ops_flat (D := Nat)).2.2.2 _ 0 0 ⟨by decide, by decide⟩).2 [3, 3] (by decide)).1⟩

/-- A copy that ends at the end of the last segment moves the cursor past
it, to `(src_count, 0)`; a next call, even for no bytes, then fails the
check `*index < src_count` and returns `-FI_ETOOSMALL`. -/
theorem ofiCopyIovDesc_past_end :
    ofiCopyIovDesc [⟨4096, 4⟩] (none : Option (List Unit)) 0 0 4 = ((0, [⟨4096, 4⟩], 1, 0), none) ∧
      ofiCopyIovDesc [⟨4096, 4⟩] (none : Option (List Unit)) 1 0 0 = ((-fiEtoosmall, [], 1, 0), none) := by
  decide

/-! ### Locating an offset -/

theorem iovLocateLoop_eq_some_iff {offset : Nat} {lens : List Nat} {i curoffset j off : Nat}
    (noWrap : curoffset + lens.sum < 2 ^ 64) :
    iovLocateLoop offset lens i curoffset = some (j, off) ↔
      ∃ k len, lens[k]? = some len ∧ j = i + k ∧ off < len ∧ curoffset + (lens.take k).sum + off = offset := by
  induction lens generalizing i curoffset with
  | nil => simp [iovLocateLoop]
  | cons len rest ih =>
      simp only [List.sum_cons] at noWrap
      have add : sizeAdd curoffset len = curoffset + len := Nat.mod_eq_of_lt (by omega)
      simp only [iovLocateLoop, add]
      by_cases here : offset ≥ curoffset ∧ offset < curoffset + len
      · -- `offset` lies in this segment, and in no later one
        rw [if_pos here]
        constructor
        · intro found
          simp only [Option.some.injEq, Prod.mk.injEq] at found
          obtain ⟨rfl, rfl⟩ := found
          exact ⟨0, len, rfl, rfl, by omega, by simp only [List.take_zero, List.sum_nil]; omega⟩
        · rintro ⟨k, len', get, rfl, short, pos⟩
          cases k with
          | zero =>
              simp only [List.getElem?_cons_zero, Option.some.injEq] at get
              simp only [List.take_zero, List.sum_nil] at pos
              simp only [Option.some.injEq, Prod.mk.injEq]
              omega
          | succ k =>
              simp only [List.take_succ_cons, List.sum_cons] at pos
              omega
      · rw [if_neg here, ih (by omega)]
        constructor
        · rintro ⟨k, len', get, rfl, short, pos⟩
          exact ⟨k + 1, len', by simpa using get, by omega, short,
            by simp only [List.take_succ_cons, List.sum_cons]; omega⟩
        · rintro ⟨k, len', get, rfl, short, pos⟩
          cases k with
          | zero =>
              simp only [List.getElem?_cons_zero, Option.some.injEq] at get
              simp only [List.take_zero, List.sum_nil] at pos
              omega
          | succ k =>
              simp only [List.take_succ_cons, List.sum_cons] at pos
              exact ⟨k, len', by simpa using get, by omega, short, by omega⟩

theorem iovLocateLoop_isSome {offset : Nat} {lens : List Nat} {i curoffset : Nat}
    (noWrap : curoffset + lens.sum < 2 ^ 64) (after : curoffset ≤ offset) (before : offset < curoffset + lens.sum) :
    (iovLocateLoop offset lens i curoffset).isSome := by
  induction lens generalizing i curoffset with
  | nil => simp at before; omega
  | cons len rest ih =>
      simp only [List.sum_cons] at noWrap before
      have add : sizeAdd curoffset len = curoffset + len := Nat.mod_eq_of_lt (by omega)
      simp only [iovLocateLoop, add]
      by_cases here : offset ≥ curoffset ∧ offset < curoffset + len
      · rw [if_pos here]
        rfl
      · rw [if_neg here]
        exact ih (by omega) (by omega) (by omega)

theorem iovLocate_eq_loop {lens : List Nat} (noWrap : lens.sum < 2 ^ 64) (offset : Nat) :
    iovLocate lens offset = iovLocateLoop offset lens 0 0 := by
  unfold iovLocate
  split
  · rename_i len
    simp only [List.sum_cons, List.sum_nil, Nat.add_zero] at noWrap
    have add : sizeAdd 0 len = len := by rw [sizeAdd, Nat.zero_add, Nat.mod_eq_of_lt noWrap]
    simp only [iovLocateLoop, add, Nat.zero_le, true_and, Nat.sub_zero]
    by_cases past : offset ≥ len
    · rw [if_pos past, if_neg (by omega)]
    · rw [if_neg past, if_pos (by omega)]
  · rfl

theorem sum_take_add_le {lens : List Nat} {i len : Nat} (get : lens[i]? = some len) :
    (lens.take i).sum + len ≤ lens.sum := by
  induction lens generalizing i with
  | nil => simp at get
  | cons first rest ih =>
      cases i with
      | zero =>
          simp only [List.getElem?_cons_zero, Option.some.injEq] at get
          simp only [List.take_zero, List.sum_nil, List.sum_cons]
          omega
      | succ i =>
          simp only [List.getElem?_cons_succ] at get
          simp only [List.take_succ_cons, List.sum_cons]
          have := ih get
          omega

/-- The locate helpers, when the lengths add up without a `size_t` wrap:
they return segment `i` and an offset `off` inside it exactly when the
lengths before `i` and `off` add up to `offset`. -/
theorem iovLocate_eq_some_iff {lens : List Nat} (noWrap : lens.sum < 2 ^ 64) {offset i off : Nat} :
    iovLocate lens offset = some (i, off) ↔
      ∃ len, lens[i]? = some len ∧ off < len ∧ (lens.take i).sum + off = offset := by
  rw [iovLocate_eq_loop noWrap, iovLocateLoop_eq_some_iff (by omega)]
  constructor
  · rintro ⟨k, len, get, rfl, short, pos⟩
    refine ⟨len, by simpa using get, short, ?_⟩
    rw [Nat.zero_add]
    omega
  · rintro ⟨len, get, short, pos⟩
    exact ⟨i, len, get, by omega, short, by omega⟩

theorem iovLocate_isSome_iff {lens : List Nat} (noWrap : lens.sum < 2 ^ 64) (offset : Nat) :
    (iovLocate lens offset).isSome ↔ offset < lens.sum := by
  constructor
  · intro found
    obtain ⟨⟨i, off⟩, loc⟩ := Option.isSome_iff_exists.mp found
    obtain ⟨len, get, short, pos⟩ := (iovLocate_eq_some_iff noWrap).mp loc
    have := sum_take_add_le get
    omega
  · intro before
    rw [iovLocate_eq_loop noWrap]
    exact iovLocateLoop_isSome (by omega) (Nat.zero_le _) (by omega)

/-- The lengths add up in `size_t`: past `2 ^ 64` the loop misses an offset
that lies inside the segments. -/
theorem ofiRmaIovLocate_wraps :
    2 ^ 64 - 1 < ([⟨0, 2 ^ 64 - 1, 0⟩, ⟨0, 2, 0⟩].map FiRmaIov.len).sum ∧
      ofiRmaIovLocate [⟨0, 2 ^ 64 - 1, 0⟩, ⟨0, 2, 0⟩] (2 ^ 64 - 1) = none := by
  decide

/-! ### Copies between a buffer and segments of bytes -/

theorem copyIovToBufLoop_eq (iov : List Bytes) (offset bufsize : Nat) {buf : Bytes} {done : Nat}
    (inside : done ≤ buf.length) :
    copyIovToBufLoop iov offset bufsize buf done =
      (writeAt buf done ((iov.flatten.drop offset).take bufsize),
        done + min bufsize (iov.flatten.length - offset)) := by
  induction iov generalizing offset bufsize buf done with
  | nil => simp [copyIovToBufLoop]
  | cons seg rest ih =>
      simp only [copyIovToBufLoop, ofiIovBytesToCopy, List.flatten_cons, List.length_append]
      by_cases empty : bufsize = 0
      · simp [empty]
      · rw [if_neg empty]
        split
        · -- the offset lies past this segment: skip it
          rename_i past
          dsimp only
          rw [if_pos rfl, ih _ _ inside, List.drop_append, List.drop_eq_nil_of_le (show seg.length ≤ offset by omega),
            List.nil_append]
          simp only [Prod.mk.injEq, true_and]
          omega
        · rename_i within
          dsimp only
          have front : (seg ++ rest.flatten).drop offset = seg.drop offset ++ rest.flatten :=
            List.drop_append_of_le_length (by omega)
          split
          · -- the offset is exactly the end of this segment
            rename_i nothing
            have left : bufsize - min (seg.length - offset) bufsize = bufsize := by omega
            rw [ih _ _ inside, front, List.drop_eq_nil_of_le (show seg.length ≤ offset by omega), List.nil_append,
              List.drop_zero, left]
            simp only [Prod.mk.injEq, true_and]
            omega
          · rename_i copied
            have count : ((seg.drop offset).take (min (seg.length - offset) bufsize)).length =
                min (seg.length - offset) bufsize := by
              simp only [List.length_take, List.length_drop]
              omega
            have grown := @le_length_writeAt _ buf ((seg.drop offset).take (min (seg.length - offset) bufsize)) done
              inside
            rw [count] at grown
            rw [ih _ _ grown, writeAt_writeAt_append inside count, front, List.drop_zero, List.take_append,
              List.length_drop]
            simp only [Prod.mk.injEq]
            refine ⟨?_, by omega⟩
            rcases Nat.le_total (seg.length - offset) bufsize with fitsIn | overflows
            · -- the rest of the segment fits: all of it is copied
              have whole : (seg.drop offset).length ≤ seg.length - offset := by simp
              have fits : (seg.drop offset).length ≤ bufsize := by simp only [List.length_drop]; omega
              rw [Nat.min_eq_left fitsIn, List.take_of_length_le whole, List.take_of_length_le fits]
            · rw [Nat.min_eq_right overflows, Nat.sub_self, Nat.sub_eq_zero_of_le overflows]

theorem ofiCopyIovBufToBuf_eq (iov : List Bytes) (offset : Nat) (buf : Bytes) (bufsize : Nat) :
    ofiCopyIovBufToBuf iov offset buf bufsize =
      (writeAt buf 0 ((iov.flatten.drop offset).take bufsize), min bufsize (iov.flatten.length - offset)) := by
  rw [ofiCopyIovBufToBuf, copyIovToBufLoop_eq iov offset bufsize (Nat.zero_le _), Nat.zero_add]

theorem ofiCopyToIov_single (seg : Bytes) (iovOffset : Nat) (buf : Bytes) (bufsize : Nat) :
    ofiCopyToIov [seg] iovOffset buf bufsize = ofiCopyIovBuf [seg] iovOffset buf bufsize := by
  rw [Byteq.ofiCopyIovBuf_eq]
  simp only [ofiCopyToIov, scatter, List.flatten_cons, List.flatten_nil, List.append_nil]
  by_cases past : iovOffset > seg.length
  · rw [if_pos past, if_pos past]
    simp only [List.take_zero, writeAt_nil, Prod.mk.injEq, true_and]
    omega
  · rw [if_neg past, if_neg (by omega), List.take_take, Nat.min_comm (seg.length - iovOffset)]

theorem ofiCopyFromIov_single (buf : Bytes) (bufsize : Nat) (seg : Bytes) (iovOffset : Nat) :
    ofiCopyFromIov buf bufsize [seg] iovOffset = ofiCopyIovBufToBuf [seg] iovOffset buf bufsize := by
  rw [ofiCopyIovBufToBuf_eq]
  simp only [ofiCopyFromIov, List.flatten_cons, List.flatten_nil, List.append_nil]
  by_cases past : iovOffset > seg.length
  · rw [if_pos past, List.drop_eq_nil_of_le (by omega)]
    simp only [List.take_nil, Prod.mk.injEq, true_and]
    omega
  · rw [if_neg past, List.take_eq_take_min (l := seg.drop iovOffset) (i := bufsize), List.length_drop,
      Nat.min_comm bufsize]

theorem ofiCopyToIov_eq (iov : List Bytes) (iovOffset : Nat) (buf : Bytes) (bufsize : Nat) :
    ofiCopyToIov iov iovOffset buf bufsize =
      (scatter iov iovOffset (buf.take bufsize), min bufsize (iov.flatten.length - iovOffset)) := by
  match iov with
  | [seg] => rw [ofiCopyToIov_single, Byteq.ofiCopyIovBuf_eq]
  | [] => exact Byteq.ofiCopyIovBuf_eq _ _ _ _
  | _ :: _ :: _ => exact Byteq.ofiCopyIovBuf_eq _ _ _ _

theorem ofiCopyFromIov_nil (bufsize : Nat) (iov : List Bytes) (iovOffset : Nat) :
    ofiCopyFromIov [] bufsize iov iovOffset =
      ((iov.flatten.drop iovOffset).take bufsize, min bufsize (iov.flatten.length - iovOffset)) := by
  have copied : ofiCopyFromIov [] bufsize iov iovOffset = ofiCopyIovBufToBuf iov iovOffset [] bufsize := by
    match iov with
    | [seg] => exact ofiCopyFromIov_single [] bufsize seg iovOffset
    | [] => rfl
    | _ :: _ :: _ => rfl
  rw [copied, ofiCopyIovBufToBuf_eq, writeAt, List.take_nil, List.drop_nil, List.nil_append, List.append_nil]

theorem iovLocate_map_eq_some_iff {α : Type} (f : α → Nat) {segs : List α} (noWrap : (segs.map f).sum < 2 ^ 64)
    {offset i off : Nat} :
    iovLocate (segs.map f) offset = some (i, off) ↔
      ∃ seg, segs[i]? = some seg ∧ off < f seg ∧ ((segs.take i).map f).sum + off = offset := by
  rw [iovLocate_eq_some_iff noWrap, List.map_take]
  simp only [List.getElem?_map, Option.map_eq_some_iff]
  constructor
  · rintro ⟨len, ⟨seg, get, rfl⟩, short, pos⟩
    exact ⟨seg, get, short, pos⟩
  · rintro ⟨seg, get, short, pos⟩
    exact ⟨f seg, ⟨seg, get, rfl⟩, short, pos⟩

/-- The copy and locate helpers of `ofi_iov.h` against the flat view: a copy
between a buffer and segments moves `min bufsize (total - offset)` bytes
between the buffer's front and the flat view at `offset`, the one-segment
fast paths copy what the loop copies, and without a `size_t` wrap of the
lengths the locate helpers find the segment and offset of every flat
position before the total. -/
theorem iov_copy_locate_flat :
    (∀ (iov : List Bytes) (offset : Nat) (buf : Bytes) (bufsize : Nat),
      (ofiCopyIovBuf iov offset buf bufsize).1.flatten =
          writeAt iov.flatten offset (buf.take (min bufsize (iov.flatten.length - offset))) ∧
        (ofiCopyIovBuf iov offset buf bufsize).1.map List.length = iov.map List.length ∧
        (ofiCopyIovBuf iov offset buf bufsize).2 = min bufsize (iov.flatten.length - offset)) ∧
    (∀ (iov : List Bytes) (offset : Nat) (buf : Bytes) (bufsize : Nat),
      ofiCopyIovBufToBuf iov offset buf bufsize =
        (writeAt buf 0 ((iov.flatten.drop offset).take (min bufsize (iov.flatten.length - offset))),
          min bufsize (iov.flatten.length - offset))) ∧
    (∀ (seg : Bytes) (offset : Nat) (buf : Bytes) (bufsize : Nat),
      ofiCopyToIov [seg] offset buf bufsize = ofiCopyIovBuf [seg] offset buf bufsize ∧
        ofiCopyFromIov buf bufsize [seg] offset = ofiCopyIovBufToBuf [seg] offset buf bufsize) ∧
    (∀ (iov : List Iovec) (offset i off : Nat), (iov.map Iovec.iovLen).sum < 2 ^ 64 →
      (ofiIovLocate iov offset = some (i, off) ↔
          ∃ seg, iov[i]? = some seg ∧ off < seg.iovLen ∧ ((iov.take i).map Iovec.iovLen).sum + off = offset) ∧
        ((ofiIovLocate iov offset).isSome ↔ offset < (iov.map Iovec.iovLen).sum)) ∧
    (∀ (rmaIov : List FiRmaIov) (offset i off : Nat), (rmaIov.map FiRmaIov.len).sum < 2 ^ 64 →
      (ofiRmaIovLocate rmaIov offset = some (i, off) ↔
          ∃ seg, rmaIov[i]? = some seg ∧ off < seg.len ∧ ((rmaIov.take i).map FiRmaIov.len).sum + off = offset) ∧
        ((ofiRmaIovLocate rmaIov offset).isSome ↔ offset < (rmaIov.map FiRmaIov.len).sum)) := by
  refine ⟨fun iov offset buf bufsize => ?_, fun iov offset buf bufsize => ?_,
    fun seg offset buf bufsize => ⟨ofiCopyToIov_single seg offset buf bufsize,
      ofiCopyFromIov_single buf bufsize seg offset⟩,
    fun iov offset _ _ noWrap => ⟨iovLocate_map_eq_some_iff Iovec.iovLen noWrap, iovLocate_isSome_iff noWrap offset⟩,
    fun rmaIov offset _ _ noWrap => ⟨iovLocate_map_eq_some_iff FiRmaIov.len noWrap,
      iovLocate_isSome_iff noWrap offset⟩⟩
  · -- `OFI_COPY_BUF_TO_IOV`: a write into the flat view
    rw [Byteq.ofiCopyIovBuf_eq, flatten_scatter, map_length_scatter, List.take_take, Nat.min_comm]
    exact ⟨rfl, rfl, rfl⟩
  · -- `OFI_COPY_IOV_TO_BUF`: a write of the flat view into the buffer's front
    rw [ofiCopyIovBufToBuf_eq, List.take_eq_take_min (l := iov.flatten.drop offset) (i := bufsize),
      List.length_drop]

theorem iov_copy_locate_flat_sample :
    ((ofiIovLocate [⟨4096, 4⟩, ⟨0, 0⟩, ⟨8192, 2⟩] 5).isSome ↔
        5 < ([⟨4096, 4⟩, ⟨0, 0⟩, ⟨8192, 2⟩].map Iovec.iovLen).sum) ∧
      (ofiRmaIovLocate [⟨4096, 4, 1⟩, ⟨8192, 2, 1⟩] 5 = some (1, 1) ↔
        ∃ seg, ([⟨4096, 4, 1⟩, ⟨8192, 2, 1⟩] : List FiRmaIov)[1]? = some seg ∧ 1 < seg.len ∧
          ((([⟨4096, 4, 1⟩, ⟨8192, 2, 1⟩] : List FiRmaIov).take 1).map FiRmaIov.len).sum + 1 = 5) :=
  ⟨(iov_copy_locate_flat.2.2.2.1 _ 5 0 0 (by decide)).2,
    (iov_copy_locate_flat.2.2.2.2 _ 5 1 1 (by decide)).1⟩

end Libfabric
