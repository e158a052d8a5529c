import Ece391.Kernel.Memcpy
import Ece391.Library.BlockFill

/-!
# `memset` and `memmove`

`memset` fills like `memcpy` copies: bytes until the pointer is aligned, then words by
`rep stosl`, and then the bytes that are left.  `memmove` copies from the end when the source is
below the destination, and leaves the direction flag set.  Each function clears the flag before it
repeats an instruction, so that none depends on the flag it finds.
-/

namespace Ece391.Kernel

open Ece391.Library

/-! ## The repeated instructions -/

/-- The registers of a repeated string instruction, the direction flag, and the memory. -/
structure StringState where
  esi : BitVec 32
  edi : BitVec 32
  ecx : BitVec 32
  df : Bool
  memory : ByteMemory

/-- A pointer behind an element of a string instruction. -/
def stepped (df : Bool) (pointer : BitVec 32) (width : Nat) : BitVec 32 :=
  if df then pointer - BitVec.ofNat 32 width else pointer + BitVec.ofNat 32 width

/-- `rep movsb`, one repetition. -/
def movsbBody (state : StringState) : Option (ForInStep StringState) :=
  if state.ecx = 0 then some (.done state)
  else
    some (.yield
      { state with
        memory := Function.update state.memory state.edi (state.memory state.esi)
        esi := stepped state.df state.esi 1
        edi := stepped state.df state.edi 1
        ecx := state.ecx - 1 })

/-- `rep stosl`, one repetition. -/
def stoslBody (eax : BitVec 32) (state : StringState) : Option (ForInStep StringState) :=
  if state.ecx = 0 then some (.done state)
  else
    some (.yield
      { state with
        memory := storeWord state.memory state.edi eax
        edi := stepped state.df state.edi 4
        ecx := state.ecx - 1 })

/-- `rep stosw`, one repetition. -/
def stoswBody (ax : BitVec 16) (state : StringState) : Option (ForInStep StringState) :=
  if state.ecx = 0 then some (.done state)
  else
    some (.yield
      { state with
        memory := Function.update (Function.update state.memory state.edi (ax.extractLsb' 0 8))
          (state.edi + 1) (ax.extractLsb' 8 8)
        edi := stepped state.df state.edi 2
        ecx := state.ecx - 1 })

/-! ## `memset` -/

/-- The first loop of `memset`, from `.memset_top`: it ends with the bytes all stored, or with an
aligned pointer. -/
def memsetTop (al : BitVec 8) (state : StringState) : Option (ForInStep StringState) :=
  if state.ecx &&& state.ecx = 0 then some (.done state)
  else if state.edi &&& 3 = 0 then some (.done state)
  else
    some (.yield
      { state with
        memory := Function.update state.memory state.edi al
        edi := state.edi + 1
        ecx := state.ecx - 1 })

/-- The last loop, from `.memset_bottom`; here `ecx` stands for `edx`. -/
def memsetBottom (al : BitVec 8) (state : StringState) : Option (ForInStep StringState) :=
  if state.ecx &&& state.ecx = 0 then some (.done state)
  else
    some (.yield
      { state with
        memory := Function.update state.memory state.edi al
        edi := state.edi + 1
        ecx := state.ecx - 1 })

/-- The word that `memset` stores. -/
def splat (c : BitVec 32) : BitVec 32 :=
  let c := c &&& 0xFF
  c <<< 24 ||| c <<< 16 ||| c <<< 8 ||| c

/-- `memset`: the pointer returned, the direction flag, and the memory. -/
def memset (fuel : Nat) (s c n : BitVec 32) (df : Bool) (memory : ByteMemory) :
    Option (BitVec 32 × Bool × ByteMemory) := do
  let eax := splat c
  let al := eax.extractLsb' 0 8
  let state ← loop (memsetTop al) fuel ⟨0, s, n, df, memory⟩
  if state.ecx &&& state.ecx = 0 then pure (s, state.df, state.memory)
  else
    let words ← loop (stoslBody eax) fuel { state with df := false, ecx := state.ecx >>> 2 }
    let last ← loop (memsetBottom al) fuel { words with ecx := state.ecx &&& 3 }
    pure (s, last.df, last.memory)

/-- `memset_word`, where `n` counts words. -/
def memsetWord (fuel : Nat) (s c n : BitVec 32) (memory : ByteMemory) :
    Option (BitVec 32 × Bool × ByteMemory) :=
  (loop (stoswBody (c.extractLsb' 0 16)) fuel ⟨0, s, n, false, memory⟩).map fun last =>
    (s, last.df, last.memory)

/-- `memset_dword`, where `n` counts double words. -/
def memsetDword (fuel : Nat) (s c n : BitVec 32) (memory : ByteMemory) :
    Option (BitVec 32 × Bool × ByteMemory) :=
  (loop (stoslBody c) fuel ⟨0, s, n, false, memory⟩).map fun last =>
    (s, last.df, last.memory)

/-! ## `memmove` -/

/-- `memmove`: `jae` is taken when the source is not below the destination. -/
def memmove (fuel : Nat) (dest src n : BitVec 32) (memory : ByteMemory) :
    Option (BitVec 32 × Bool × ByteMemory) :=
  let start : StringState :=
    if src.ult dest then ⟨src + n - 1, dest + n - 1, n, true, memory⟩
    else ⟨src, dest, n, false, memory⟩
  (loop movsbBody fuel start).map fun last => (dest, last.df, last.memory)

/-! ## What they do -/

/-- A first part of a region has been filled, and the pointer stands behind it. -/
structure Fills (memory : ByteMemory) (target : BitVec 32) (value : Nat → BitVec 8) (count : Nat)
    (state : StringState) : Prop where
  edi : state.edi = target + BitVec.ofNat 32 count
  memory : state.memory = filled memory target value count

section

variable {memory : ByteMemory} {target : BitVec 32} {value : Nat → BitVec 8} {fuel count : Nat}
variable {state : StringState}

theorem ecx_eq_zero (none : state.ecx.toNat = 0) : state.ecx = 0 :=
  BitVec.eq_of_toNat_eq none

theorem ecx_pred (some : state.ecx.toNat ≠ 0) : (state.ecx - 1).toNat + 1 = state.ecx.toNat :=
  (toNat_sub_one fun none => some (by rw [none]; rfl)).symm

/-- The next element stands behind the one just filled. -/
theorem add_ofNat_add (target : BitVec 32) (count width : Nat) :
    target + BitVec.ofNat 32 count + BitVec.ofNat 32 width =
      target + BitVec.ofNat 32 (count + width) := by
  rw [BitVec.add_assoc, ← BitVec.ofNat_add]

/-- `rep stosl` fills words upwards. -/
theorem stosl_fills {eax : BitVec 32} (fills : Fills memory target value count state)
    (clear : state.df = false) (fits : count + 4 * state.ecx.toNat ≤ 4294967296)
    (bytes : ∀ k, ∀ j < 4, eax.extractLsb' (8 * j) 8 = value (count + 4 * k + j))
    (enough : state.ecx.toNat < fuel) :
    ∃ last, loop (stoslBody eax) fuel state = some last ∧ last.df = false ∧
      Fills memory target value (count + 4 * state.ecx.toNat) last := by
  obtain ⟨last, ran, -, clear', fills'⟩ := loop_counted (stoslBody eax)
    (fun done next => next.df = false ∧ Fills memory target value (count + 4 * done) next)
    (fun next => next.ecx.toNat)
    (fun next none => if_pos (ecx_eq_zero none))
    (fun done next kept total some => by
      obtain ⟨clear, edi, filled_⟩ := kept
      have nonzero : next.ecx ≠ 0 := fun none => some (by rw [none]; rfl)
      refine ⟨_, by rw [stoslBody, if_neg nonzero], ?_⟩
      refine ⟨ecx_pred some, clear, ?_, ?_⟩
      · simp only [stepped, clear, edi]
        exact add_ofNat_add target (count + 4 * done) 4
      · simp only [edi, filled_]
        exact filled_word (by omega) (bytes done))
    enough rfl ⟨clear, fills⟩
  exact ⟨last, ran, clear', fills'⟩

/-- `rep stosw` fills half words upwards. -/
theorem stosw_fills {ax : BitVec 16} (fills : Fills memory target value count state)
    (clear : state.df = false) (fits : count + 2 * state.ecx.toNat ≤ 4294967296)
    (low : ∀ k, ax.extractLsb' 0 8 = value (count + 2 * k))
    (high : ∀ k, ax.extractLsb' 8 8 = value (count + 2 * k + 1))
    (enough : state.ecx.toNat < fuel) :
    ∃ last, loop (stoswBody ax) fuel state = some last ∧ last.df = false ∧
      Fills memory target value (count + 2 * state.ecx.toNat) last := by
  obtain ⟨last, ran, -, clear', fills'⟩ := loop_counted (stoswBody ax)
    (fun done next => next.df = false ∧ Fills memory target value (count + 2 * done) next)
    (fun next => next.ecx.toNat)
    (fun next none => if_pos (ecx_eq_zero none))
    (fun done next kept total some => by
      obtain ⟨clear, edi, filled_⟩ := kept
      have nonzero : next.ecx ≠ 0 := fun none => some (by rw [none]; rfl)
      refine ⟨_, by rw [stoswBody, if_neg nonzero], ?_⟩
      refine ⟨ecx_pred some, clear, ?_, ?_⟩
      · simp only [stepped, clear, edi]
        exact add_ofNat_add target (count + 2 * done) 2
      · simp only [edi, filled_]
        rw [low done, high done, filled_succ (by omega)]
        have behind := add_ofNat_add target (count + 2 * done) 1
        rw [show BitVec.ofNat 32 1 = 1 from rfl] at behind
        rw [behind]
        exact filled_succ (by omega))
    enough rfl ⟨clear, fills⟩
  exact ⟨last, ran, clear', fills'⟩

/-- The last loop of `memset` fills bytes upwards. -/
theorem memsetBottom_fills {al : BitVec 8} (fills : Fills memory target (fun _ => al) count state)
    (fits : count + state.ecx.toNat ≤ 4294967296) (enough : state.ecx.toNat < fuel) :
    ∃ last, loop (memsetBottom al) fuel state = some last ∧ last.df = state.df ∧
      Fills memory target (fun _ => al) (count + state.ecx.toNat) last := by
  obtain ⟨last, ran, -, same, fills'⟩ := loop_counted (memsetBottom al)
    (fun done next => next.df = state.df ∧ Fills memory target (fun _ => al) (count + done) next)
    (fun next => next.ecx.toNat)
    (fun next none => by rw [memsetBottom, BitVec.and_self, if_pos (ecx_eq_zero none)])
    (fun done next kept total some => by
      obtain ⟨same, edi, filled_⟩ := kept
      have nonzero : ¬ next.ecx &&& next.ecx = 0 := fun none =>
        some (by rw [(BitVec.and_self ..).symm.trans none]; rfl)
      refine ⟨_, by rw [memsetBottom, if_neg nonzero], ?_⟩
      refine ⟨ecx_pred some, same, ?_, ?_⟩
      · simp only [edi]
        exact add_ofNat_add target (count + done) 1
      · simp only [edi, filled_]
        exact filled_succ (by omega))
    enough rfl ⟨rfl, fills⟩
  exact ⟨last, ran, same, fills'⟩

/-- The first loop of `memset` fills bytes upwards and counts the others. -/
theorem memsetTop_fills {al : BitVec 8} (fills : Fills memory target (fun _ => al) 0 state)
    (enough : state.ecx.toNat < fuel) :
    ∃ last count, loop (memsetTop al) fuel state = some last ∧ last.df = state.df ∧
      Fills memory target (fun _ => al) count last ∧
      count + last.ecx.toNat = state.ecx.toNat := by
  obtain ⟨last, ran, count, same, fills', total⟩ := @loop_total _ (memsetTop al) fuel state
    (fun next => ∃ count, next.df = state.df ∧ Fills memory target (fun _ => al) count next ∧
      count + next.ecx.toNat = state.ecx.toNat)
    (fun last => ∃ count, last.df = state.df ∧ Fills memory target (fun _ => al) count last ∧
      count + last.ecx.toNat = state.ecx.toNat)
    (fun next => next.ecx.toNat)
    (by
      rintro next ⟨count, same, fills, total⟩
      by_cases zero : next.ecx &&& next.ecx = 0
      · exact .inl ⟨next, if_pos zero, count, same, fills, total⟩
      by_cases aligned : next.edi &&& 3 = 0
      · exact .inl ⟨next, (if_neg zero).trans (if_pos aligned), count, same, fills, total⟩
      · right
        have bound := state.ecx.isLt
        have nonzero : next.ecx ≠ 0 := fun none => zero (by rw [none]; rfl)
        have fewer := toNat_sub_one nonzero
        refine ⟨_, by rw [memsetTop, if_neg zero, if_neg aligned], ?_⟩
        refine ⟨⟨count + 1, same, ⟨?_, ?_⟩, ?_⟩, ?_⟩
        · simp only [fills.edi]
          exact add_ofNat_add target count 1
        · simp only [fills.edi, fills.memory]
          exact filled_succ (by omega)
        · simp only
          omega
        · simp only
          omega)
    enough ⟨0, rfl, fills, Nat.zero_add _⟩
  exact ⟨last, count, ran, same, fills', total⟩

end

theorem getLsbD_byteMask (i : Nat) : (255#32).getLsbD i = decide (i < 8) := by
  have bits : Nat.testBit 255 i = decide (i < 8) := Nat.testBit_two_pow_sub_one 8 i
  rw [BitVec.getLsbD_ofNat, bits, ← Bool.decide_and]
  exact decide_eq_decide.mpr ⟨fun both => both.2, fun low => ⟨by omega, low⟩⟩

/-- Each byte of the word that `memset` stores is the low byte of its argument. -/
theorem extractLsb'_splat (c : BitVec 32) {j : Nat} (small : j < 4) :
    (splat c).extractLsb' (8 * j) 8 = c.setWidth 8 := by
  ext i inside
  obtain rfl | rfl | rfl | rfl : j = 0 ∨ j = 1 ∨ j = 2 ∨ j = 3 := by omega
  all_goals simp [splat, getLsbD_byteMask]
  all_goals grind

/-- The bytes of a word, repeated from the start of a region. -/
def wordBytes {width : Nat} (word : BitVec width) (size k : Nat) : BitVec 8 :=
  word.extractLsb' (8 * (k % size)) 8

section

variable {fuel : Nat} {s c n dest src : BitVec 32}

/-- `memset` fills its region with the low byte of its argument, whatever the alignment. -/
theorem memset_fills (df : Bool) (memory : ByteMemory) (enough : n.toNat < fuel) :
    ∃ df', memset fuel s c n df memory =
        some (s, df', filled memory s (fun _ => c.setWidth 8) n.toNat) ∧
      (df' = true → df = true) := by
  have low : (splat c).extractLsb' 0 8 = c.setWidth 8 :=
    extractLsb'_splat c (show 0 < 4 by decide)
  have start : Fills memory s (fun _ => c.setWidth 8) 0 ⟨0, s, n, df, memory⟩ :=
    ⟨(BitVec.add_zero s).symm, (filled_zero ..).symm⟩
  obtain ⟨state, count, ran, same, fills, total⟩ := memsetTop_fills start enough
  have bound := n.isLt
  simp only at total same
  rw [memset, low]
  simp only [Option.pure_def, Option.bind_eq_bind]
  rw [ran, Option.bind_some]
  by_cases zero : state.ecx &&& state.ecx = 0
  · have none : state.ecx = 0 := (BitVec.and_self ..).symm.trans zero
    have all : count = n.toNat := by
      rw [none] at total
      exact total
    rw [if_pos zero, fills.memory, all]
    exact ⟨state.df, rfl, fun set => same ▸ set⟩
  · have split := counter_split state.ecx
    obtain ⟨words, ran', clear, fills'⟩ := @stosl_fills memory s (fun _ => c.setWidth 8) fuel count
      { state with df := false, ecx := state.ecx >>> 2 } (splat c) ⟨fills.edi, fills.memory⟩ rfl
      (by simp only; omega) (fun _ _ small => extractLsb'_splat c small) (by simp only; omega)
    obtain ⟨last, ran'', same', fills''⟩ := @memsetBottom_fills memory s fuel
      (count + 4 * (state.ecx >>> 2).toNat) { words with ecx := state.ecx &&& 3 } (c.setWidth 8)
      ⟨fills'.edi, fills'.memory⟩ (by simp only; omega) (by simp only; omega)
    have all : count + 4 * (state.ecx >>> 2).toNat + (state.ecx &&& 3).toNat = n.toNat := by omega
    rw [if_neg zero, ran', Option.bind_some, ran'', Option.bind_some, fills''.memory]
    simp only at same' ⊢
    rw [all, same', clear]
    exact ⟨false, rfl, fun set => by cases set⟩

/-- `memset_word` repeats the low half of its argument. -/
theorem memsetWord_fills (memory : ByteMemory) (fits : 2 * n.toNat ≤ 4294967296)
    (enough : n.toNat < fuel) :
    memsetWord fuel s c n memory =
      some (s, false, filled memory s (wordBytes c 2) (2 * n.toNat)) := by
  have start : Fills memory s (wordBytes c 2) 0 ⟨0, s, n, false, memory⟩ :=
    ⟨(BitVec.add_zero s).symm, (filled_zero ..).symm⟩
  have low (k : Nat) : (c.extractLsb' 0 16).extractLsb' 0 8 = wordBytes c 2 (0 + 2 * k) := by
    rw [wordBytes, Nat.zero_add, Nat.mul_mod_right]
    ext i inside
    simp
  have high (k : Nat) : (c.extractLsb' 0 16).extractLsb' 8 8 = wordBytes c 2 (0 + 2 * k + 1) := by
    rw [wordBytes, Nat.zero_add, Nat.mul_add_mod]
    ext i inside
    simp
  obtain ⟨last, ran, clear, fills⟩ := stosw_fills start rfl (by simpa using fits) low high enough
  rw [memsetWord, ran, Option.map_some, clear, fills.memory, Nat.zero_add]

/-- `memset_dword` repeats its argument. -/
theorem memsetDword_fills (memory : ByteMemory) (fits : 4 * n.toNat ≤ 4294967296)
    (enough : n.toNat < fuel) :
    memsetDword fuel s c n memory =
      some (s, false, filled memory s (wordBytes c 4) (4 * n.toNat)) := by
  have start : Fills memory s (wordBytes c 4) 0 ⟨0, s, n, false, memory⟩ :=
    ⟨(BitVec.add_zero s).symm, (filled_zero ..).symm⟩
  obtain ⟨last, ran, clear, fills⟩ := stosl_fills start rfl (by simpa using fits)
    (fun k j small => by
      rw [wordBytes, Nat.zero_add, Nat.mul_add_mod, Nat.mod_eq_of_lt small]) enough
  rw [memsetDword, ran, Option.map_some, clear, fills.memory, Nat.zero_add]

theorem add_ofNat_succ_sub (base : BitVec 32) (k : Nat) :
    base + BitVec.ofNat 32 (k + 1) - BitVec.ofNat 32 1 = base + BitVec.ofNat 32 k := by
  rw [BitVec.ofNat_add, ← BitVec.add_assoc, BitVec.add_sub_cancel]

/-- The last byte of a region that is not empty. -/
theorem add_sub_one (base : BitVec 32) (nonempty : n.toNat ≠ 0) :
    base + n - 1 = base + BitVec.ofNat 32 (n.toNat - 1) := by
  obtain ⟨k, size⟩ := Nat.exists_eq_succ_of_ne_zero nonempty
  have whole : n = BitVec.ofNat 32 (k + 1) := by
    rw [← Nat.succ_eq_add_one, ← size, BitVec.ofNat_toNat, BitVec.setWidth_eq]
  rw [size, Nat.succ_sub_one, ← add_ofNat_succ_sub base k, ← whole]
  rfl

/-- `rep movsb` upwards. -/
theorem movsb_up {memory : ByteMemory} (upward : dest.toNat ≤ src.toNat)
    (sourceEnd : src.toNat + n.toNat ≤ 4294967296) (enough : n.toNat < fuel) :
    ∃ last, loop movsbBody fuel ⟨src, dest, n, false, memory⟩ = some last ∧ last.df = false ∧
      last.memory = moved memory src dest 0 n.toNat := by
  have initial : memory = moved memory src dest 0 0 := (moved_empty ..).symm
  obtain ⟨last, ran, -, clear, -, -, moved_⟩ := @loop_counted _ fuel
    ⟨src, dest, n, false, memory⟩ movsbBody
    (fun done next => next.df = false ∧ next.esi = src + BitVec.ofNat 32 done ∧
      next.edi = dest + BitVec.ofNat 32 done ∧ next.memory = moved memory src dest 0 done)
    (fun next => next.ecx.toNat) n.toNat
    (fun next none => if_pos (ecx_eq_zero none))
    (fun done next kept total some => by
      obtain ⟨clear, esi, edi, moved_⟩ := kept
      have nonzero : next.ecx ≠ 0 := fun none => some (by rw [none]; rfl)
      refine ⟨_, by rw [movsbBody, if_neg nonzero], ?_⟩
      refine ⟨ecx_pred some, clear, ?_, ?_, ?_⟩
      · simp only [stepped, clear, esi]
        exact add_ofNat_add src done 1
      · simp only [stepped, clear, edi]
        exact add_ofNat_add dest done 1
      · simp only [esi, edi, moved_]
        exact moved_succ upward sourceEnd (by omega))
    enough rfl ⟨rfl, (BitVec.add_zero src).symm, (BitVec.add_zero dest).symm, initial⟩
  exact ⟨last, ran, clear, moved_⟩

/-- `rep movsb` downwards, from the last bytes on. -/
theorem movsb_down {memory : ByteMemory} (downward : src.toNat < dest.toNat)
    (targetEnd : dest.toNat + n.toNat ≤ 4294967296) (enough : n.toNat < fuel) :
    ∃ last, loop movsbBody fuel ⟨src + n - 1, dest + n - 1, n, true, memory⟩ = some last ∧
      last.df = true ∧ last.memory = moved memory src dest 0 n.toNat := by
  have initial : memory = moved memory src dest (n.toNat - 0) n.toNat := (moved_empty ..).symm
  obtain ⟨last, ran, -, set, -, moved_⟩ := @loop_counted _ fuel
    ⟨src + n - 1, dest + n - 1, n, true, memory⟩ movsbBody
    (fun done next => next.df = true ∧
      (done < n.toNat → next.esi = src + BitVec.ofNat 32 (n.toNat - 1 - done) ∧
        next.edi = dest + BitVec.ofNat 32 (n.toNat - 1 - done)) ∧
      next.memory = moved memory src dest (n.toNat - done) n.toNat)
    (fun next => next.ecx.toNat) n.toNat
    (fun next none => if_pos (ecx_eq_zero none))
    (fun done next kept total some => by
      obtain ⟨set, pointers, moved_⟩ := kept
      obtain ⟨esi, edi⟩ := pointers (by omega)
      have nonzero : next.ecx ≠ 0 := fun none => some (by rw [none]; rfl)
      refine ⟨_, by rw [movsbBody, if_neg nonzero], ?_⟩
      refine ⟨ecx_pred some, set, fun more => ?_, ?_⟩
      · have index : n.toNat - 1 - done = n.toNat - 1 - (done + 1) + 1 := by omega
        simp only [stepped, set, esi, edi, if_true, index, add_ofNat_succ_sub, and_self]
      · have index : n.toNat - done = n.toNat - 1 - done + 1 := by omega
        have index' : n.toNat - (done + 1) = n.toNat - 1 - done := by omega
        simp only [esi, edi, moved_, index, index']
        exact moved_pred downward targetEnd (by omega))
    enough rfl ⟨rfl, fun some => ⟨add_sub_one src (Nat.ne_of_gt some),
      add_sub_one dest (Nat.ne_of_gt some)⟩, initial⟩
  rw [Nat.sub_self] at moved_
  exact ⟨last, ran, set, moved_⟩

/-- The branch that is taken moves every byte, and leaves the flag as it has set it. -/
theorem memmove_moved (memory : ByteMemory) (sourceEnd : src.toNat + n.toNat ≤ 4294967296)
    (targetEnd : dest.toNat + n.toNat ≤ 4294967296) (enough : n.toNat < fuel) :
    memmove fuel dest src n memory =
      some (dest, src.ult dest, moved memory src dest 0 n.toNat) := by
  rw [memmove]
  by_cases below : src.ult dest
  · obtain ⟨last, ran, set, whole⟩ := movsb_down (BitVec.ult_iff_lt.mp below) targetEnd enough
    rw [below, if_pos rfl, ran, Option.map_some, set, whole]
  · have upward : dest.toNat ≤ src.toNat := by
      rw [Bool.not_eq_true, BitVec.ult_eq_decide, decide_eq_false_iff_not] at below
      exact Nat.le_of_not_lt below
    obtain ⟨last, ran, clear, whole⟩ := movsb_up upward sourceEnd enough
    rw [if_neg below, ran, Option.map_some, clear, whole, Bool.eq_false_of_not_eq_true below]

/-- `memmove` moves its region from the end exactly when the source is below the destination, so
that regions may overlap either way; the direction flag is left as it was used. -/
theorem memmove_moves (memory : ByteMemory) (sourceEnd : src.toNat + n.toNat ≤ 4294967296)
    (targetEnd : dest.toNat + n.toNat ≤ 4294967296) (enough : n.toNat < fuel) :
    memmove fuel dest src n memory =
      some (dest, src.ult dest, copied memory src dest n.toNat) := by
  rw [memmove_moved memory sourceEnd targetEnd enough, moved_whole]

/-- Ten bytes moved up by two, over themselves. -/
theorem memmove_moves_overlapping :
    memmove 11 0x3002 0x3000 10 (fun place => place.setWidth 8) =
      some (0x3002, true, copied (fun place => place.setWidth 8) 0x3000 0x3002 10) :=
  memmove_moves (fun place => place.setWidth 8) (by decide) (by decide) (by decide)

end

/-! ## Calls after one another -/

/-- A call of one of the functions that repeat a string instruction. -/
inductive BlockCall where
  | memset (s c n : BitVec 32)
  | memsetWord (s c n : BitVec 32)
  | memsetDword (s c n : BitVec 32)
  | memmove (dest src n : BitVec 32)
  deriving DecidableEq

namespace BlockCall

/-- The direction flag and the memory that a call leaves. -/
def run (fuel : Nat) (found : Bool × ByteMemory) : BlockCall → Option (Bool × ByteMemory)
  | memset s c n => (Kernel.memset fuel s c n found.1 found.2).map Prod.snd
  | memsetWord s c n => (Kernel.memsetWord fuel s c n found.2).map Prod.snd
  | memsetDword s c n => (Kernel.memsetDword fuel s c n found.2).map Prod.snd
  | memmove dest src n => (Kernel.memmove fuel dest src n found.2).map Prod.snd

/-- What a call is for: each byte of its region gets its value at once. -/
def plain (memory : ByteMemory) : BlockCall → ByteMemory
  | memset s c n => filled memory s (fun _ => c.setWidth 8) n.toNat
  | memsetWord s c n => filled memory s (wordBytes c 2) (2 * n.toNat)
  | memsetDword s c n => filled memory s (wordBytes c 4) (4 * n.toNat)
  | memmove dest src n => copied memory src dest n.toNat

/-- The elements of a call. -/
def count : BlockCall → Nat
  | memset _ _ n | memsetWord _ _ n | memsetDword _ _ n | memmove _ _ n => n.toNat

/-- The regions of a call lie in the address space. -/
def InRange : BlockCall → Prop
  | memset _ _ _ => True
  | memsetWord _ _ n => 2 * n.toNat ≤ 4294967296
  | memsetDword _ _ n => 4 * n.toNat ≤ 4294967296
  | memmove dest src n =>
      src.toNat + n.toNat ≤ 4294967296 ∧ dest.toNat + n.toNat ≤ 4294967296

/-- One call does what it is for, with either flag. -/
theorem run_plain {fuel : Nat} {call : BlockCall} (found : Bool × ByteMemory)
    (inRange : call.InRange) (enough : call.count < fuel) :
    ∃ df, call.run fuel found = some (df, call.plain found.2) := by
  cases call with
  | memset s c n =>
      obtain ⟨df, ran, -⟩ := @memset_fills fuel s c n found.1 found.2 enough
      exact ⟨df, by rw [run, ran, Option.map_some, plain]⟩
  | memsetWord s c n =>
      exact ⟨false, by rw [run, memsetWord_fills found.2 inRange enough, Option.map_some, plain]⟩
  | memsetDword s c n =>
      exact ⟨false, by rw [run, memsetDword_fills found.2 inRange enough, Option.map_some, plain]⟩
  | memmove dest src n =>
      exact ⟨src.ult dest,
        by
          rw [run, memmove_moved found.2 inRange.1 inRange.2 enough, moved_whole, Option.map_some,
            plain]⟩

end BlockCall

/-- Calls after one another do what they are for, whatever flag each one leaves to the next. -/
theorem block_calls_plain {fuel : Nat} (calls : List BlockCall) (found : Bool × ByteMemory)
    (inRange : ∀ call ∈ calls, call.InRange) (enough : ∀ call ∈ calls, call.count < fuel) :
    ∃ df, calls.foldlM (BlockCall.run fuel) found =
      some (df, calls.foldl BlockCall.plain found.2) := by
  induction calls generalizing found with
  | nil => exact ⟨found.1, rfl⟩
  | cons call calls ih =>
      obtain ⟨df, ran⟩ := BlockCall.run_plain found (inRange call List.mem_cons_self)
        (enough call List.mem_cons_self)
      obtain ⟨last, rest⟩ := ih (df, call.plain found.2)
        (fun call among => inRange call (List.mem_cons_of_mem _ among))
        (fun call among => enough call (List.mem_cons_of_mem _ among))
      refine ⟨last, ?_⟩
      rw [List.foldlM_cons, ran]
      exact rest

/-- Five bytes moved up by one, which leaves the flag set, and then two words and a byte
filled. -/
theorem block_calls_plain_three :
    ∃ df, [BlockCall.memmove 0x3001 0x3000 5, .memsetDword 0x3000 0x20 2,
        .memset 0x3003 0x141 1].foldlM (BlockCall.run 9) (false, fun _ => 7) =
      some (df, [BlockCall.memmove 0x3001 0x3000 5, .memsetDword 0x3000 0x20 2,
        .memset 0x3003 0x141 1].foldl BlockCall.plain fun _ => 7) :=
  block_calls_plain _ (false, fun _ => 7)
    (by simp [BlockCall.InRange]) (by simp [BlockCall.count])

end Ece391.Kernel
