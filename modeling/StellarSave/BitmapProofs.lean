import StellarSave.DataProofs
import StellarSave.PackedProofs
import StellarSave.TallyProofs
import StellarSave.TraceProofs

/-! # Bitmaps — the contributors of a cycle, one bit each

    `ContributionBitmap` (`storage_optimization.rs`) keeps who has contributed as
    bits, with their number and the sum of what they gave beside them.  The sum is
    checked AFTER the bit is set and counted: a call that is refused for it has
    done its work all the same. -/

namespace SaveBitmap

open SaveData Packed Tally Trace

/-- `ContributionBitmap`. -/
structure ContributionBitmap where
  groupId : Nat
  cycle : Nat
  bitmap : List (BitVec 64)
  memberCount : Nat
  contributorsCount : Nat
  totalAmount : Int
  deriving DecidableEq, Repr

namespace ContributionBitmap

/-- `ContributionBitmap::new`; a `usize` is 32 bits wide where contracts run. -/
def new (groupId cycle memberCount : Nat) : Option ContributionBitmap :=
  (checkedU32 (memberCount + 63)).map fun rounded =>
    { groupId, cycle, memberCount
      bitmap := List.replicate (rounded / 64) 0#64
      contributorsCount := 0
      totalAmount := 0 }

/-- `set_contribution`: what it returns and what it leaves, or nothing where the
    plain `+= 1` panics. -/
def setContribution (b : ContributionBitmap) (memberIndex : Nat) (amount : Int) :
    Option (Except SaveError Unit × ContributionBitmap) :=
  if memberIndex ≥ b.memberCount then some (.error .invalidState, b)
  else match b.bitmap[memberIndex / 64]? with
    | none => some (.error .invalidState, b)
    | some chunk =>
        if isSet chunk (memberIndex % 64) then some (.ok (), b)
        else
          (checkedU32 (b.contributorsCount + 1)).map fun count =>
            let counted : ContributionBitmap :=
              { b with
                bitmap := b.bitmap.set (memberIndex / 64) (chunk ||| mask 64 (memberIndex % 64))
                contributorsCount := count }
            match checkedI128 (b.totalAmount + amount) with
            | none => (.error .internalError, counted)
            | some total => (.ok (), { counted with totalAmount := total })

/-- `has_contributed`. -/
def hasContributed (b : ContributionBitmap) (memberIndex : Nat) : Except SaveError Bool :=
  if memberIndex ≥ b.memberCount then .error .invalidState
  else match b.bitmap[memberIndex / 64]? with
    | none => .error .invalidState
    | some chunk => .ok (isSet chunk (memberIndex % 64))

/-- `is_complete`. -/
def isComplete (b : ContributionBitmap) : Bool := decide (b.contributorsCount ≥ b.memberCount)

end ContributionBitmap

/-- A bitmap, and the indices of the calls that have succeeded. -/
structure Trial where
  bitmap : ContributionBitmap
  done : List Nat

/-- One call; a panic leaves everything as it is. -/
def step (call : Nat × Int) (s : Trial) : Trial :=
  match s.bitmap.setContribution call.1 call.2 with
  | none => s
  | some (.ok (), b) => ⟨b, call.1 :: s.done⟩
  | some (.error _, b) => ⟨b, s.done⟩

/-- **THE SET**: the bitmap is the set of the indices that were set. -/
structure Faithful (s : Trial) : Prop where
  contributed : ∀ i, s.bitmap.hasContributed i = .ok true ↔ i ∈ s.done
  counted : Counted (fun i => member s.bitmap.bitmap i = true) s.bitmap.contributorsCount
  complete : s.bitmap.isComplete = true ↔ ∀ i, i < s.bitmap.memberCount →
    s.bitmap.hasContributed i = .ok true

/-- A call that ends, leaves the bitmap alone where it is refused, and the set
    behind it. -/
def Meets (call : Nat × Int) (s : Trial) : Prop :=
  (∃ r b, s.bitmap.setContribution call.1 call.2 = some (r, b) ∧
    ∀ e, r = .error e → b = s.bitmap) ∧ Faithful (step call s)

/-- The sum can take the amount of an index that is not set yet. -/
def Fits (call : Nat × Int) (s : Trial) : Prop :=
  s.bitmap.hasContributed call.1 = .ok false →
    -i128Bound ≤ s.bitmap.totalAmount + call.2 ∧ s.bitmap.totalAmount + call.2 < i128Bound

/-- What every call keeps, refused or not: the words reach as far as the members,
    no bit is set beyond them, and as many as are counted. -/
structure Sound (b : ContributionBitmap) : Prop where
  fits : b.memberCount ≤ u32Max
  words : ∀ i, i < b.memberCount → ∃ chunk, b.bitmap[i / 64]? = some chunk
  below : ∀ i, member b.bitmap i = true → i < b.memberCount
  counted : Counted (fun i => member b.bitmap i = true) b.contributorsCount

section Calls

variable {b b' : ContributionBitmap} {i j : Nat} {amount : Int} {s : Trial} {call : Nat × Int}

theorem Sound.hasContributed_eq (hb : Sound b) (i : Nat) :
    b.hasContributed i = if i < b.memberCount then .ok (member b.bitmap i)
      else .error .invalidState := by
  rw [ContributionBitmap.hasContributed]
  by_cases hi : i < b.memberCount
  · obtain ⟨chunk, hchunk⟩ := hb.words i hi
    rw [if_neg (Nat.not_le.mpr hi), if_pos hi, hchunk, member_of_word hchunk]
  · rw [if_pos (Nat.le_of_not_lt hi), if_neg hi]

theorem Sound.has_iff (hb : Sound b) : b.hasContributed i = .ok true ↔ member b.bitmap i = true := by
  rw [hb.hasContributed_eq]
  by_cases hi : i < b.memberCount
  · simp [hi]
  · have hnot : member b.bitmap i ≠ true := fun hset => hi (hb.below i hset)
    simp [hi, hnot]

theorem Sound.lacks_iff (hb : Sound b) :
    b.hasContributed i = .ok false ↔ i < b.memberCount ∧ member b.bitmap i = false := by
  rw [hb.hasContributed_eq]
  by_cases hi : i < b.memberCount
  · simp [hi]
  · simp [hi]

/-- The members counted from nought. -/
theorem counted_below (n : Nat) : Counted (· < n) n := by
  refine ⟨Finset.range n, fun i => Finset.mem_range, Finset.card_range n⟩

theorem Sound.count_le (hb : Sound b) : b.contributorsCount ≤ b.memberCount :=
  hb.counted.le (counted_below b.memberCount) hb.below

/-- **COMPLETE** is: nobody is missing. -/
theorem Sound.complete_iff (hb : Sound b) :
    b.isComplete = true ↔ ∀ i, i < b.memberCount → b.hasContributed i = .ok true := by
  rw [ContributionBitmap.isComplete, decide_eq_true_eq]
  constructor
  · intro hle i hi
    exact hb.has_iff.mpr (hb.counted.all_of_le (counted_below b.memberCount) hb.below hle i hi)
  · intro hall
    exact (counted_below b.memberCount).le hb.counted fun i hi => hb.has_iff.mp (hall i hi)

/-- The bit of an index set and counted. -/
def marked (b : ContributionBitmap) (i : Nat) (chunk : BitVec 64) : ContributionBitmap :=
  { b with
    bitmap := b.bitmap.set (i / 64) (chunk ||| mask 64 (i % 64))
    contributorsCount := b.contributorsCount + 1 }

theorem Sound.marked {chunk : BitVec 64} (hb : Sound b) (hi : i < b.memberCount)
    (hchunk : b.bitmap[i / 64]? = some chunk) (hfree : member b.bitmap i = false) :
    Sound (marked b i chunk) ∧
      ∀ j, member (SaveBitmap.marked b i chunk).bitmap j = (member b.bitmap j || decide (j = i)) := by
  have hset : ∀ j, member (SaveBitmap.marked b i chunk).bitmap j
      = (member b.bitmap j || decide (j = i)) := fun j => member_set (by decide) hchunk
  refine ⟨⟨hb.fits, fun j hj => ?_, fun j hj => ?_, ?_⟩, hset⟩
  · obtain ⟨other, hother⟩ := hb.words j hj
    have hlt : j / 64 < (b.bitmap.set (i / 64) (chunk ||| mask 64 (i % 64))).length := by
      rw [List.length_set]
      exact (List.getElem?_eq_some_iff.mp hother).1
    exact ⟨_, List.getElem?_eq_getElem hlt⟩
  · rw [hset, Bool.or_eq_true, decide_eq_true_eq] at hj
    rcases hj with hold | rfl
    · exact hb.below j hold
    · exact hi
  · refine hb.counted.insert (a := i) (by simp [hfree]) fun j => ?_
    rw [hset, Bool.or_eq_true, decide_eq_true_eq, or_comm]

/-- **ONE CALL**, case by case: out of range, set before, or set now, and then the
    sum decides what is returned. -/
theorem Sound.setContribution_cases (hb : Sound b) (i : Nat) (amount : Int) :
    (¬ i < b.memberCount ∧ b.setContribution i amount = some (.error .invalidState, b)) ∨
    (member b.bitmap i = true ∧ b.setContribution i amount = some (.ok (), b)) ∨
    (b.hasContributed i = .ok false ∧ ∃ chunk, Sound (SaveBitmap.marked b i chunk) ∧
      (∀ j, member (SaveBitmap.marked b i chunk).bitmap j = (member b.bitmap j || decide (j = i))) ∧
      b.setContribution i amount = some (match checkedI128 (b.totalAmount + amount) with
        | none => (.error .internalError, SaveBitmap.marked b i chunk)
        | some total => (.ok (), { SaveBitmap.marked b i chunk with totalAmount := total }))) := by
  by_cases hi : i < b.memberCount
  · obtain ⟨chunk, hchunk⟩ := hb.words i hi
    have hbit := member_of_word hchunk
    cases hmember : member b.bitmap i with
    | true =>
        refine Or.inr (Or.inl ⟨rfl, ?_⟩)
        rw [ContributionBitmap.setContribution, if_neg (Nat.not_le.mpr hi), hchunk]
        dsimp only
        rw [← hbit, hmember]
        rfl
    | false =>
        obtain ⟨hsound, hset⟩ := hb.marked hi hchunk hmember
        refine Or.inr (Or.inr ⟨hb.lacks_iff.mpr ⟨hi, hmember⟩, chunk, hsound, hset, ?_⟩)
        -- one more than are counted is at most the number of members
        have hroom : b.contributorsCount + 1 ≤ u32Max :=
          (hsound.count_le).trans hb.fits
        have hcount : checkedU32 (b.contributorsCount + 1) = some (b.contributorsCount + 1) :=
          if_pos hroom
        rw [ContributionBitmap.setContribution, if_neg (Nat.not_le.mpr hi), hchunk]
        dsimp only
        rw [← hbit, hmember, hcount]
        rfl
  · refine Or.inl ⟨hi, ?_⟩
    rw [ContributionBitmap.setContribution, if_pos (Nat.le_of_not_lt hi)]

/-- What the calls that succeed keep: the bits that are set are those of the
    indices that were set. -/
structure Tracked (s : Trial) : Prop where
  sound : Sound s.bitmap
  done : ∀ i, member s.bitmap.bitmap i = true ↔ i ∈ s.done

theorem Tracked.faithful (h : Tracked s) : Faithful s where
  contributed i := h.sound.has_iff.trans (h.done i)
  counted := h.sound.counted
  complete := h.sound.complete_iff

theorem step_of_ok (h : s.bitmap.setContribution call.1 call.2 = some (.ok (), b)) :
    step call s = ⟨b, call.1 :: s.done⟩ := by
  rw [step, h]

theorem step_of_error {e : SaveError}
    (h : s.bitmap.setContribution call.1 call.2 = some (.error e, b)) : step call s = ⟨b, s.done⟩ := by
  rw [step, h]

/-- **ONE CALL THAT FITS** sets its index, or is refused and changes nothing. -/
theorem tracked_step (call : Nat × Int) (s : Trial) (hfits : Fits call s) (hs : Tracked s) :
    Tracked (step call s) ∧ ∃ r b, s.bitmap.setContribution call.1 call.2 = some (r, b) ∧
      ∀ e, r = .error e → b = s.bitmap := by
  rcases hs.sound.setContribution_cases call.1 call.2 with ⟨-, hcall⟩ | ⟨hset, hcall⟩ |
    ⟨hfree, chunk, hsound, hmembers, hcall⟩
  · rw [step_of_error hcall]
    exact ⟨⟨hs.sound, hs.done⟩, _, _, hcall, fun _ _ => rfl⟩
  · rw [step_of_ok hcall]
    refine ⟨⟨hs.sound, fun i => ?_⟩, _, _, hcall, fun _ _ => rfl⟩
    rw [List.mem_cons, hs.done]
    constructor
    · exact Or.inr
    · rintro (rfl | hi)
      · exact (hs.done call.1).mp hset
      · exact hi
  · have hsum : checkedI128 (s.bitmap.totalAmount + call.2) = some (s.bitmap.totalAmount + call.2) :=
      if_pos (hfits hfree)
    rw [hsum] at hcall
    rw [step_of_ok hcall]
    refine ⟨⟨⟨hsound.fits, hsound.words, hsound.below, hsound.counted⟩, fun i => ?_⟩, _, _, hcall,
      fun e he => by cases he⟩
    show member (marked s.bitmap call.1 chunk).bitmap i = true ↔ _
    rw [hmembers, Bool.or_eq_true, decide_eq_true_eq, hs.done, List.mem_cons, or_comm]

/-- A call that does what is asked of it fits. -/
theorem fits_of_meets (hs : Tracked s) (h : Meets call s) : Fits call s := by
  intro hfree
  obtain ⟨⟨r, b, hcall, hkept⟩, -⟩ := h
  have hlacks := hs.sound.lacks_iff.mp hfree
  rcases hs.sound.setContribution_cases call.1 call.2 with ⟨hout, -⟩ | ⟨hset, -⟩ |
    ⟨-, chunk, -, -, hmarked⟩
  · exact absurd hlacks.1 hout
  · exact absurd hset (by simp [hlacks.2])
  · by_contra hover
    rw [checkedI128_eq_none.mpr hover, hcall] at hmarked
    obtain ⟨rfl, rfl⟩ := Prod.mk.inj (Option.some.inj hmarked)
    -- the count has gone up although the call was refused
    have hsame := congrArg ContributionBitmap.contributorsCount (hkept .internalError rfl)
    exact absurd hsame (Nat.succ_ne_self _)

theorem tracked_new {groupId cycle memberCount : Nat}
    (h : ContributionBitmap.new groupId cycle memberCount = some b) : Tracked ⟨b, []⟩ := by
  rw [ContributionBitmap.new, Option.map_eq_some_iff] at h
  obtain ⟨rounded, hrounded, rfl⟩ := h
  obtain ⟨hfits, rfl⟩ := checkedU32_eq_some.mp hrounded
  have hclear : ∀ i, member (List.replicate ((memberCount + 63) / 64) 0#64) i = false :=
    fun i => member_replicate _
  refine ⟨⟨(Nat.le_add_right _ 63).trans hfits, fun i hi => ?_, fun i hi => ?_, ?_⟩, fun i => ?_⟩
  · have hi' : i < memberCount := hi
    have hlt : i / 64 < (memberCount + 63) / 64 := by omega
    exact ⟨0#64, by rw [List.getElem?_replicate, if_pos hlt]⟩
  · exact absurd hi (by simp [hclear])
  · exact counted_none fun i => by simp [hclear]
  · simp [hclear]

end Calls

/-- **A SET OF INDICES**, exactly along the runs in which the sum can take every
    amount that comes with an index not set yet. -/
theorem bitmap_refines_set {groupId cycle memberCount : Nat} {b : ContributionBitmap}
    (hnew : ContributionBitmap.new groupId cycle memberCount = some b) (calls : List (Nat × Int)) :
    Faithful ⟨b, []⟩ ∧
      (Along step Meets calls ⟨b, []⟩ ↔ Along step Fits calls ⟨b, []⟩) := by
  have hs : Tracked ⟨b, []⟩ := tracked_new hnew
  refine ⟨hs.faithful, along_congr (fun call s hs => ?_) (fun call s hfits hs => ?_) hs calls⟩
  · constructor
    · exact fits_of_meets hs
    · intro hfits
      obtain ⟨hnext, hkept⟩ := tracked_step call s hfits hs
      exact ⟨hkept, hnext.faithful⟩
  · exact (tracked_step call s hfits hs).1

/-- A group of two. -/
def pairBitmap : ContributionBitmap := ⟨1, 0, [0#64], 2, 0, 0⟩

/-- Everybody gives a hundred, one of them twice, and somebody is not a member. -/
theorem bitmap_refines_set_pair :
    Along step Meets [(0, 100), (0, 100), (7, 100), (1, 100)] ⟨pairBitmap, []⟩ := by
  have hnew : ContributionBitmap.new 1 0 2 = some pairBitmap := rfl
  refine (bitmap_refines_set hnew _).2.mpr ?_
  refine ⟨fun _ => ?_, fun h => ?_, fun h => ?_, fun _ => ?_, trivial⟩
  · decide
  · cases h
  · cases h
  · decide

/-- The first gives as much as there can be. -/
def fullBitmap : ContributionBitmap := ⟨1, 0, [1#64], 2, 1, 170141183460469231731687303715884105727⟩

/-- **REFUSED, AND COUNTED**: the second is told that it failed, and has contributed. -/
theorem refused_call_sets_the_bit :
    ContributionBitmap.new 1 0 2 = some pairBitmap ∧
      pairBitmap.setContribution 0 170141183460469231731687303715884105727 = some (.ok (), fullBitmap) ∧
      (∃ b, fullBitmap.setContribution 1 1 = some (.error .internalError, b) ∧ b ≠ fullBitmap ∧
        b.hasContributed 1 = .ok true ∧ b.isComplete = true) ∧
      ¬ Along step Meets [(0, 170141183460469231731687303715884105727), (1, 1)] ⟨pairBitmap, []⟩ := by
  refine ⟨rfl, rfl, ⟨_, rfl, by decide, rfl, rfl⟩, ?_⟩
  rintro ⟨-, ⟨⟨r, b, hcall, hkept⟩, -⟩, -⟩
  have hmarked : fullBitmap.setContribution 1 1
      = some (.error .internalError, { fullBitmap with bitmap := [3#64], contributorsCount := 2 }) := rfl
  obtain ⟨rfl, rfl⟩ := Prod.mk.inj (Option.some.inj (hmarked.symm.trans hcall))
  exact absurd (hkept .internalError rfl) (by decide)

end SaveBitmap
