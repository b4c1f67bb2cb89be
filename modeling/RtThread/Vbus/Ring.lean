import Mathlib.Algebra.Ring.Nat
import RtThread.Library.CircularBuffer

/-!
# The ring of the virtual bus

Packets of any size up to 252 bytes lie in runs of blocks, each behind a header of 4 bytes, and go
around the end of the blocks in the middle of their data.
-/

open Function (update update_of_ne update_self)

namespace RtThread.Vbus

open CircularBuffer

def blkHeadSz : Nat := 4

def blkSz : Nat := 64

def maxPktSz : Nat := 256 - blkHeadSz

def len2bnr (len : Nat) : Nat := (len + blkHeadSz + blkSz - 1) / blkSz

structure Pkg where
  id : UInt8
  prio : UInt8
  data : List UInt8
deriving DecidableEq

def Pkg.bnr (pkg : Pkg) : Nat := len2bnr pkg.data.length

/-- `struct rt_vbus_ring`, with the bytes of its blocks. -/
structure Ring where
  putIdx : Nat
  getIdx : Nat
  blocked : Bool
  blks : Nat → UInt8

namespace Ring

variable (blkNr : Nat) (ring : Ring)

def spaceNr : Int :=
  let delta : Int := ring.getIdx - ring.putIdx
  if 0 < delta then delta - 1 else blkNr + delta - 1

/-- `_ring_add_get_bnr`, which the in thread also spells out. -/
def addGetBnr (bnr : Nat) : Ring :=
  let nidx := ring.getIdx + bnr
  { ring with getIdx := if blkNr ≤ nidx then nidx - blkNr else nidx }

def write (pkg : Pkg) : Ring :=
  let nxtidx := ring.putIdx + pkg.bnr
  let first := blkSz * ring.putIdx
  let len := pkg.data.length
  let tailsz := min ((blkNr - ring.putIdx) * blkSz - blkHeadSz) len
  let header := update (update (update ring.blks first pkg.id)
    (first + 1) pkg.prio) (first + 2) (UInt8.ofNat len)
  let data := fun k => pkg.data.getD k 0
  let tail := copyBlock header (first + blkHeadSz) data 0 tailsz
  { ring with
    blks := if blkNr ≤ nxtidx then copyBlock tail 0 data tailsz (len - tailsz)
      else copyBlock header (first + blkHeadSz) data 0 len }

def addPutBnr (bnr : Nat) : Ring :=
  let nxtidx := ring.putIdx + bnr
  { ring with putIdx := if blkNr ≤ nxtidx then nxtidx - blkNr else nxtidx }

/-- The `id`, `qos` and `len` of the block at `get_idx`. -/
def headId : UInt8 := ring.blks (blkSz * ring.getIdx)

def headQos : UInt8 := ring.blks (blkSz * ring.getIdx + 1)

def headLen : Nat := (ring.blks (blkSz * ring.getIdx + 2)).toNat

def read (size : Nat) : List UInt8 :=
  let nxtidx := ring.getIdx + len2bnr size
  let first := blkSz * ring.getIdx + blkHeadSz
  let tailsz := min ((blkNr - ring.getIdx) * blkSz - blkHeadSz) size
  let act : Nat → UInt8 := fun _ => 0
  (List.range size).map
    (if blkNr ≤ nxtidx then
      copyBlock (copyBlock act 0 ring.blks first tailsz) tailsz ring.blks 0 (size - tailsz)
    else copyBlock act 0 ring.blks first size)

end Ring

open CircularBuffer

def total (pkgs : List Pkg) : Nat := (pkgs.map Pkg.bnr).sum

@[simp] theorem total_nil : total [] = 0 := rfl

@[simp] theorem total_cons (pkg : Pkg) (pkgs : List Pkg) :
    total (pkg :: pkgs) = pkg.bnr + total pkgs := rfl

@[simp] theorem total_append (pkgs more : List Pkg) :
    total (pkgs ++ more) = total pkgs + total more := by
  simp [total]

def Stored (blks : Nat → UInt8) (blkNr : Nat) : Nat → List Pkg → Prop
  | _, [] => True
  | idx, pkg :: pkgs =>
    blks (blkSz * idx) = pkg.id ∧ blks (blkSz * idx + 1) = pkg.prio ∧
      (blks (blkSz * idx + 2)).toNat = pkg.data.length ∧
      contents blks (blkSz * blkNr) (blkSz * idx + blkHeadSz) pkg.data.length = pkg.data ∧
      Stored blks blkNr ((idx + pkg.bnr) % blkNr) pkgs

/-- The blocks between `get_idx` and `put_idx` hold these packets. -/
structure Ring.Holds (blkNr : Nat) (ring : Ring) (unread : List Pkg) : Prop where
  get_lt : ring.getIdx < blkNr
  put_eq : ring.putIdx = (ring.getIdx + total unread) % blkNr
  fits : total unread < blkNr
  stored : Stored ring.blks blkNr ring.getIdx unread

theorem len2bnr_bounds (len : Nat) :
    blkHeadSz + len ≤ blkSz * len2bnr len ∧ blkSz * len2bnr len < blkHeadSz + len + blkSz := by
  simp only [len2bnr, blkSz]
  omega

theorem bnr_pos (pkg : Pkg) : 0 < pkg.bnr := by
  have := len2bnr_bounds pkg.data.length
  simp only [Pkg.bnr, blkHeadSz, blkSz] at this ⊢
  omega

theorem place_mod (idx bs blkNr offset : Nat) :
    (blkSz * ((idx + bs) % blkNr) + offset) % (blkSz * blkNr) =
      (blkSz * idx + (blkSz * bs + offset)) % (blkSz * blkNr) := by
  rw [← Nat.mul_mod_mul_left, Nat.mod_add_mod, Nat.mul_add, Nat.add_assoc]

theorem Stored.congr {blks written : Nat → UInt8} {blkNr idx : Nat} {pkgs : List Pkg}
    (inside : idx < blkNr) (stored : Stored blks blkNr idx pkgs)
    (agree : ∀ offset < blkSz * total pkgs, written ((blkSz * idx + offset) % (blkSz * blkNr)) =
        blks ((blkSz * idx + offset) % (blkSz * blkNr))) : Stored written blkNr idx pkgs := by
  induction pkgs generalizing idx with
  | nil => trivial
  | cons pkg pkgs ih =>
    obtain ⟨id, prio, len, data, rest⟩ := stored
    have bounds := len2bnr_bounds pkg.data.length
    have within : blkSz * total (pkg :: pkgs) = blkSz * pkg.bnr + blkSz * total pkgs := by
      rw [total_cons, Nat.mul_add]
    have header : ∀ offset < blkHeadSz,
        written (blkSz * idx + offset) = blks (blkSz * idx + offset) := by
      intro offset below
      have same := agree offset (by simp only [Pkg.bnr] at within; omega)
      have low : blkSz * idx + offset < blkSz * blkNr := by
        simp only [blkSz, blkHeadSz] at *
        omega
      rwa [Nat.mod_eq_of_lt low] at same
    refine ⟨(header 0 (by decide)).trans id, (header 1 (by decide)).trans prio,
      by rw [header 2 (by decide), len], ?_, ih (Nat.mod_lt _ (by omega)) rest ?_⟩
    · have low : blkSz * idx + blkHeadSz < blkSz * blkNr := by
        simp only [blkSz, blkHeadSz] at *
        omega
      refine Eq.trans ?_ data
      rw [contents_eq_map _ _ low, contents_eq_map _ _ low]
      refine List.map_congr_left fun k isBelow => ?_
      have below := List.mem_range.mp isBelow
      rw [Nat.add_assoc]
      exact agree _ (by simp only [Pkg.bnr] at within; omega)
    · intro offset below
      rw [place_mod]
      exact agree _ (by omega)

theorem stored_append {blks : Nat → UInt8} {blkNr idx : Nat} {pkgs : List Pkg} {pkg : Pkg}
    (inside : idx < blkNr) : Stored blks blkNr idx (pkgs ++ [pkg]) ↔
      Stored blks blkNr idx pkgs ∧ Stored blks blkNr ((idx + total pkgs) % blkNr) [pkg] := by
  induction pkgs generalizing idx with
  | nil => simp [Stored, Nat.mod_eq_of_lt inside]
  | cons a pkgs ih =>
    have place : ((idx + a.bnr) % blkNr + total pkgs) % blkNr =
        (idx + total (a :: pkgs)) % blkNr := by
      rw [Nat.mod_add_mod, total_cons, Nat.add_assoc]
    rw [List.cons_append, Stored, Stored, ih (Nat.mod_lt _ (by omega)), place]
    simp only [and_assoc]

namespace Ring

variable {blkNr : Nat} {ring : Ring} {unread : List Pkg} {pkg : Pkg}

theorem wrap_eq {idx bnr : Nat} (inside : idx < blkNr) (le : bnr ≤ blkNr) :
    (if blkNr ≤ idx + bnr then idx + bnr - blkNr else idx + bnr) = (idx + bnr) % blkNr := by
  rcases mod_cases (by omega : idx + bnr < 2 * blkNr) with ⟨low, equal⟩ | ⟨high, equal⟩
  · rw [equal, if_neg (by omega)]
  · rw [equal, if_pos high]

section

variable (holds : ring.Holds blkNr unread)

include holds

theorem Holds.put_lt : ring.putIdx < blkNr := by
  rw [holds.put_eq]
  exact Nat.mod_lt _ (Nat.lt_of_le_of_lt (Nat.zero_le _) holds.get_lt)

theorem Holds.spaceNr_eq : ring.spaceNr blkNr = blkNr - 1 - total unread := by
  obtain ⟨get_lt, put_eq, fits, _⟩ := holds
  simp only [spaceNr, put_eq]
  rcases mod_cases (by omega : ring.getIdx + total unread < 2 * blkNr) with
    ⟨low, equal⟩ | ⟨high, equal⟩
  · rw [equal, if_neg (by omega)]
    omega
  · rw [equal, if_pos (by omega)]
    omega

theorem Holds.get_eq_put_iff : ring.getIdx = ring.putIdx ↔ unread = [] := by
  obtain ⟨get_lt, put_eq, fits, _⟩ := holds
  rw [put_eq]
  cases unread with
  | nil => simp [Nat.mod_eq_of_lt get_lt]
  | cons pkg rest =>
    have pos := bnr_pos pkg
    rw [total_cons] at fits ⊢
    rcases mod_cases (by omega : ring.getIdx + (pkg.bnr + total rest) < 2 * blkNr) with
      ⟨low, equal⟩ | ⟨high, equal⟩ <;>
    · rw [equal]
      simp only [reduceCtorEq, iff_false]
      omega

end

theorem write_eq (inside : ring.putIdx < blkNr) :
    (ring.write blkNr pkg).blks = pushBlock (update (update (update ring.blks
          (blkSz * ring.putIdx) pkg.id) (blkSz * ring.putIdx + 1) pkg.prio)
          (blkSz * ring.putIdx + 2) (UInt8.ofNat pkg.data.length))
        (blkSz * blkNr) (blkSz * ring.putIdx + blkHeadSz) (fun k => pkg.data.getD k 0)
        pkg.data.length := by
  have bounds := len2bnr_bounds pkg.data.length
  have rest : blkSz * blkNr - (blkSz * ring.putIdx + blkHeadSz) =
      (blkNr - ring.putIdx) * blkSz - blkHeadSz := by
    simp only [blkSz]
    omega
  simp only [write]
  split_ifs with wraps
  · rw [pushBlock, rest, Nat.min_comm]
    rcases Nat.le_total pkg.data.length ((blkNr - ring.putIdx) * blkSz - blkHeadSz) with
      fits | parts
    · rw [Nat.min_eq_left fits, Nat.sub_self, Nat.sub_eq_zero_of_le fits, copyBlock_zero,
        copyBlock_zero]
    · rw [Nat.min_eq_right parts]
  · rw [pushBlock_of_le]
    simp only [Pkg.bnr, blkSz] at *
    omega

theorem write_of_outside (inside : ring.putIdx < blkNr) (le : pkg.bnr ≤ blkNr) {p : Nat}
    (outside : ∀ offset < blkSz * pkg.bnr, p ≠ (blkSz * ring.putIdx + offset) % (blkSz * blkNr)) :
    (ring.write blkNr pkg).blks p = ring.blks p := by
  have bounds := len2bnr_bounds pkg.data.length
  have ne : ∀ offset < blkHeadSz + pkg.data.length,
      p ≠ (blkSz * ring.putIdx + offset) % (blkSz * blkNr) :=
    fun offset below => outside offset (by simp only [Pkg.bnr]; omega)
  have low : blkSz * ring.putIdx + blkSz ≤ blkSz * blkNr := by
    simp only [blkSz]
    omega
  have header : ∀ offset < blkHeadSz, p ≠ blkSz * ring.putIdx + offset := by
    intro offset below
    have ne := ne offset (by omega)
    rwa [Nat.mod_eq_of_lt (by simp only [blkSz, blkHeadSz] at *; omega)] at ne
  have kept : p < blkSz * ring.putIdx + blkHeadSz ∨
      blkSz * ring.putIdx + blkHeadSz +
        min pkg.data.length (blkSz * blkNr - (blkSz * ring.putIdx + blkHeadSz)) ≤ p := by
    by_contra copied
    have ne := ne (p - blkSz * ring.putIdx) (by omega)
    rw [Nat.add_sub_cancel' (by omega), Nat.mod_eq_of_lt (by omega)] at ne
    exact ne rfl
  have keptFirst : 0 + (pkg.data.length -
      (blkSz * blkNr - (blkSz * ring.putIdx + blkHeadSz))) ≤ p := by
    by_contra copied
    have ne := ne (p + blkSz * blkNr - blkSz * ring.putIdx) (by omega)
    rw [Nat.add_sub_cancel' (by omega), Nat.add_mod_right, Nat.mod_eq_of_lt] at ne
    · exact ne rfl
    · simp only [Pkg.bnr, blkSz] at *
      omega
  rw [write_eq inside, pushBlock, copyBlock_of_not_mem _ _ _ (.inr keptFirst),
    copyBlock_of_not_mem _ _ _ kept, update_of_ne (header 2 (by decide)),
    update_of_ne (header 1 (by decide))]
  exact update_of_ne (header 0 (by decide)) _ _

theorem map_getD_range (data : List UInt8) :
    (List.range data.length).map (fun k => data.getD k 0) = data := by
  refine List.ext_getElem (by simp) fun k below isBelow => ?_
  simp [isBelow]

theorem write_stored (inside : ring.putIdx < blkNr) (le : pkg.bnr ≤ blkNr)
    (size : pkg.data.length ≤ maxPktSz) :
    Stored (ring.write blkNr pkg).blks blkNr ring.putIdx [pkg] := by
  have bounds := len2bnr_bounds pkg.data.length
  have fits : blkHeadSz + pkg.data.length ≤ blkSz * blkNr :=
    Nat.le_trans bounds.1 (Nat.mul_le_mul_left _ le)
  have low : blkSz * ring.putIdx + blkHeadSz < blkSz * blkNr := by
    simp only [blkSz, blkHeadSz]
    omega
  have header : ∀ (cells : Nat → UInt8) (data : Nat → UInt8), ∀ offset < blkHeadSz,
      pushBlock cells (blkSz * blkNr) (blkSz * ring.putIdx + blkHeadSz) data pkg.data.length
        (blkSz * ring.putIdx + offset) = cells (blkSz * ring.putIdx + offset) := by
    intro cells data offset below
    rw [pushBlock, copyBlock_of_not_mem _ _ _ (by omega), copyBlock_of_not_mem _ _ _ (by omega)]
  have stored := contents_pushBlock (update (update (update ring.blks
      (blkSz * ring.putIdx) pkg.id) (blkSz * ring.putIdx + 1) pkg.prio)
      (blkSz * ring.putIdx + 2) (UInt8.ofNat pkg.data.length)) (fun k => pkg.data.getD k 0) low
    (Nat.le_trans (by omega) fits : 0 + pkg.data.length ≤ blkSz * blkNr)
  simp only [Nat.add_zero, Nat.mod_eq_of_lt low, Nat.zero_add, map_getD_range] at stored
  rw [Stored, write_eq inside]
  refine ⟨?_, ?_, ?_, stored, trivial⟩
  · exact (header _ _ 0 (by decide)).trans (by simp)
  · exact (header _ _ 1 (by decide)).trans (by simp)
  · rw [header _ _ 2 (by decide), update_self, UInt8.toNat_ofNat']
    exact Nat.mod_eq_of_lt (Nat.lt_of_le_of_lt size (by decide))

section

variable (holds : ring.Holds blkNr unread) (fits : total unread + pkg.bnr < blkNr)

include holds fits

theorem Holds.write_unread {offset : Nat} (below : offset < blkSz * total unread) :
    (ring.write blkNr pkg).blks ((blkSz * ring.getIdx + offset) % (blkSz * blkNr)) =
      ring.blks ((blkSz * ring.getIdx + offset) % (blkSz * blkNr)) := by
  refine write_of_outside holds.put_lt (by omega) fun behind within => ?_
  rw [holds.put_eq, place_mod]
  refine offset_ne (by omega) ?_
  have room : blkSz * total unread + blkSz * pkg.bnr < blkSz * blkNr := by
    rw [← Nat.mul_add]
    exact Nat.mul_lt_mul_of_pos_left fits (by decide)
  omega

theorem Holds.write (size : pkg.data.length ≤ maxPktSz) :
    (ring.write blkNr pkg).Holds blkNr unread ∧
      Stored (ring.write blkNr pkg).blks blkNr ring.putIdx [pkg] := by
  refine ⟨⟨holds.get_lt, holds.put_eq, holds.fits, holds.stored.congr holds.get_lt ?_⟩,
    write_stored holds.put_lt (by omega) size⟩
  exact fun offset below => holds.write_unread fits below

theorem Holds.addPutBnr (stored : Stored ring.blks blkNr ring.putIdx [pkg]) :
    (ring.addPutBnr blkNr pkg.bnr).Holds blkNr (unread ++ [pkg]) where
  get_lt := holds.get_lt
  put_eq := by
    have wrapped := wrap_eq holds.put_lt (by omega : pkg.bnr ≤ blkNr)
    have moved : (ring.addPutBnr blkNr pkg.bnr).putIdx = (ring.putIdx + pkg.bnr) % blkNr := wrapped
    rw [moved, holds.put_eq, Nat.mod_add_mod, total_append, total_cons, total_nil, Nat.add_zero,
      Nat.add_assoc]
    rfl
  fits := by simpa using fits
  stored := (stored_append holds.get_lt).mpr ⟨holds.stored, by rwa [← holds.put_eq]⟩

end

theorem Holds.head (holds : ring.Holds blkNr (pkg :: unread)) :
    ring.headId = pkg.id ∧ ring.headQos = pkg.prio ∧ ring.headLen = pkg.data.length :=
  ⟨holds.stored.1, holds.stored.2.1, holds.stored.2.2.1⟩

theorem read_eq {n : Nat} (inside : ring.getIdx < blkNr) :
    ring.read blkNr n = (List.range n).map (readBlock (fun _ => 0) ring.blks
      (blkSz * blkNr) (blkSz * ring.getIdx + blkHeadSz) n) := by
  have bounds := len2bnr_bounds n
  have rest : blkSz * blkNr - (blkSz * ring.getIdx + blkHeadSz) =
      (blkNr - ring.getIdx) * blkSz - blkHeadSz := by
    simp only [blkSz]
    omega
  simp only [read]
  split_ifs with wraps
  · rw [readBlock, rest, Nat.min_comm]
    rcases Nat.le_total n ((blkNr - ring.getIdx) * blkSz - blkHeadSz) with fits | parts
    · rw [Nat.min_eq_left fits, Nat.sub_self, Nat.sub_eq_zero_of_le fits, copyBlock_zero,
        copyBlock_zero]
    · rw [Nat.min_eq_right parts]
  · rw [readBlock_of_le]
    simp only [blkSz] at *
    omega

theorem Holds.read (holds : ring.Holds blkNr (pkg :: unread)) :
    ring.read blkNr pkg.data.length = pkg.data := by
  have bounds := len2bnr_bounds pkg.data.length
  have inside := holds.get_lt
  have fits := holds.fits
  rw [total_cons] at fits
  have room : blkSz * pkg.bnr ≤ blkSz * blkNr := Nat.mul_le_mul_left _ (by omega)
  have low : blkSz * ring.getIdx + blkHeadSz < blkSz * blkNr := by
    simp only [blkSz, blkHeadSz]
    omega
  rw [read_eq inside]
  refine List.ext_getElem (by simp) fun k below isBelow => ?_
  have data := holds.stored.2.2.2.1
  rw [List.getElem_map, List.getElem_range, readBlock_eq _ _ low
    (by simp only [Pkg.bnr] at room; omega), data]
  simp [isBelow]

theorem Holds.addGetBnr (holds : ring.Holds blkNr (pkg :: unread)) :
    (ring.addGetBnr blkNr pkg.bnr).Holds blkNr unread := by
  have fits := holds.fits
  rw [total_cons] at fits
  have wrapped := wrap_eq holds.get_lt (by omega : pkg.bnr ≤ blkNr)
  have moved : (ring.addGetBnr blkNr pkg.bnr).getIdx = (ring.getIdx + pkg.bnr) % blkNr := wrapped
  refine ⟨?_, ?_, by omega, ?_⟩
  · rw [moved]
    exact Nat.mod_lt _ (by omega)
  · rw [moved, Nat.mod_add_mod, Nat.add_assoc]
    exact holds.put_eq
  · rw [moved]
    exact holds.stored.2.2.2.2

end Ring

end RtThread.Vbus
