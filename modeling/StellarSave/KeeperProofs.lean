import StellarSave.NumeralProofs

/-! # The keeper — one failure charged to the whole batch

    `KeeperHandler.execute` pays every due group in one batch.  When the batch fails it
    counts a retry against each group of it, and a group with three is never tried
    again; which group could not be paid is nowhere asked. -/

namespace Keeper

open Units Numeral

def MAX_RETRIES : Nat := 3

/-- A cycle as an event holds it. -/
inductive Cycle
  | text (s : JsString)
  | number (n : Int)

/-- Its text in a template. -/
def Cycle.toJsString : Cycle → JsString
  | .text s => s
  | .number n => numeral n

/-- What is read of an event's data, every part of which may be missing. -/
structure EventData where
  group_id : Option JsString
  groupId : Option JsString
  cycle_number : Option Cycle
  cycleNumber : Option Cycle
  member : Option JsString
  address : Option JsString

structure DueGroup where
  groupId : JsString
  /-- Nothing stands for `NaN`. -/
  cycleNumber : Option Int
  memberCount : Nat

section Source

def colon : UInt16 := unit ':'

def EventData.group (data : EventData) : Option JsString := data.group_id <|> data.groupId

def EventData.cycle (data : EventData) : Cycle :=
  (data.cycle_number <|> data.cycleNumber).getD (.text (lit "0"))

def EventData.who (data : EventData) : JsString := (data.member <|> data.address).getD (lit "unknown")

/-- `groupId:cycleNumber`, for an event with a group. -/
def EventData.key? (data : EventData) : Option JsString :=
  match data.group with
  | some (u :: groupId) => some ((u :: groupId) ++ colon :: data.cycle.toJsString)
  | _ => none

/-- A map of sets, in the order its keys came. -/
abbrev CycleMap := List (JsString × List JsString)

/-- `cycleMap.get(key).add(member)`, with a new set where there is none. -/
def addMember : CycleMap → JsString → JsString → CycleMap
  | [], key, member => [(key, [member])]
  | (key', members) :: rest, key, member =>
      if key' = key then (key', if member ∈ members then members else members ++ [member]) :: rest
      else (key', members) :: addMember rest key member

def contribute (cycleMap : CycleMap) (data : EventData) : CycleMap :=
  match data.key? with
  | some key => addMember cycleMap key data.who
  | none => cycleMap

def notColon (u : UInt16) : Bool := u != colon

/-- The first two parts of `key.split(':')`. -/
def splitKey (key : JsString) : JsString × JsString :=
  (key.takeWhile notColon, ((key.dropWhile notColon).drop 1).takeWhile notColon)

def dueGroup (paidKeys : List JsString) : JsString × List JsString → Option DueGroup
  | (key, members) =>
      if key ∈ paidKeys then none
      else if 2 ≤ members.length then
        some {
          groupId := (splitKey key).1
          cycleNumber := parseInt (splitKey key).2
          memberCount := members.length }
      else none

/-- `findDueGroups`, of the two kinds of events. -/
def findDueGroups (contributions payouts : List EventData) : List DueGroup :=
  (contributions.foldl contribute []).filterMap (dueGroup (payouts.filterMap EventData.key?))

/-- The key of a group in the retry map. -/
def DueGroup.key (g : DueGroup) : JsString :=
  g.groupId ++ colon :: (g.cycleNumber.map numeral).getD (lit "NaN")

/-- The retry map, with `?? 0` for a key it does not have. -/
abbrev RetryMap := JsString → Nat

/-- `retryMap.delete`. -/
def clear (retryMap : RetryMap) (g : DueGroup) : RetryMap := Function.update retryMap g.key 0

/-- One retry more. -/
def charge (retryMap : RetryMap) (g : DueGroup) : RetryMap :=
  Function.update retryMap g.key (retryMap g.key + 1)

def actionable (retryMap : RetryMap) (due : List DueGroup) : List DueGroup :=
  due.filter fun g => decide (retryMap g.key < MAX_RETRIES)

/-- `KeeperHandler.execute` on a client that tells whether a batch went through. -/
def execute (executePayoutsBatch : List JsString → Bool) (contributions payouts : List EventData)
    (retryMap : RetryMap) : RetryMap :=
  match findDueGroups contributions payouts with
  | [] => retryMap
  | g :: due =>
      match actionable retryMap (g :: due) with
      | [] => retryMap
      | a :: batch =>
          if executePayoutsBatch ((a :: batch).map DueGroup.groupId) then
            (a :: batch).foldl clear retryMap
          else (a :: batch).foldl charge retryMap

/-- A client whose batch fails exactly when a group of it cannot be paid. -/
def client (payable : JsString → Bool) (groupIds : List JsString) : Bool := groupIds.all payable

/-- The retries after some runs of a new handler. -/
def retries (payable : JsString → Bool) (contributions payouts : List EventData) : Nat → RetryMap
  | 0 => fun _ => 0
  | n + 1 => execute (client payable) contributions payouts
      (retries payable contributions payouts n)

end Source

/-- How many due groups are counted under a key. -/
def times (due : List DueGroup) (key : JsString) : Nat := due.countP fun g => decide (g.key = key)

/-- How many failures bring a group that is counted so often to the limit. -/
def failuresFor (count : Nat) : Nat := (MAX_RETRIES + count - 1) / count

section Batch

variable {due : List DueGroup} {retryMap : RetryMap} {key : JsString}

theorem times_pos {g : DueGroup} (h : g ∈ due) : 0 < times due g.key :=
  List.countP_pos_iff.mpr ⟨g, h, by simp⟩

theorem foldl_charge : due.foldl charge retryMap key = retryMap key + times due key := by
  induction due generalizing retryMap with
  | nil => rfl
  | cons g due ih =>
      rw [List.foldl_cons, ih, times, times, List.countP_cons, charge, Function.update_apply]
      by_cases h : g.key = key
      · subst h
        simp
        omega
      · simp [h, Ne.symm h]

theorem foldl_clear :
    due.foldl clear retryMap key = if ∃ g ∈ due, g.key = key then 0 else retryMap key := by
  induction due generalizing retryMap with
  | nil => simp
  | cons g due ih =>
      rw [List.foldl_cons, ih, clear, Function.update_apply]
      by_cases h : key = g.key
      · subst h
        simp
      · simp [h, Ne.symm h]

theorem mem_actionable {g : DueGroup} :
    g ∈ actionable retryMap due ↔ g ∈ due ∧ retryMap g.key < MAX_RETRIES := by
  simp [actionable]

/-- All groups under one key are in the batch together, or none is. -/
theorem times_actionable :
    times (actionable retryMap due) key = if retryMap key < MAX_RETRIES then times due key else 0 := by
  rw [times, actionable, List.countP_filter]
  split
  · next h =>
      refine List.countP_congr fun g _ => ?_
      by_cases hkey : g.key = key
      · simp [hkey, h]
      · simp [hkey]
  · next h =>
      refine List.countP_eq_zero.mpr fun g _ => ?_
      by_cases hkey : g.key = key
      · simp [hkey, h]
      · simp [hkey]

theorem count_reaches {count n : Nat} (h : 0 < count) :
    n < failuresFor count ↔ n * count < MAX_RETRIES := by
  rw [failuresFor, Nat.lt_div_iff_mul_lt h]
  show n * count < 3 + count - 1 - (count - 1) ↔ n * count < 3
  omega

end Batch

section Run

variable (payable : JsString → Bool) (contributions payouts : List EventData)

/-- A due group that cannot be paid is still tried. -/
def Blocked (retryMap : RetryMap) : Prop :=
  ∃ u ∈ findDueGroups contributions payouts,
    payable u.groupId = false ∧ retryMap u.key < MAX_RETRIES

variable {payable contributions payouts} {retryMap : RetryMap} {key : JsString} {n : Nat}

/-- What a run leaves, in the batch. -/
theorem execute_eq : execute (client payable) contributions payouts retryMap =
    (if (actionable retryMap (findDueGroups contributions payouts)).all fun g => payable g.groupId
      then (actionable retryMap (findDueGroups contributions payouts)).foldl clear retryMap
      else (actionable retryMap (findDueGroups contributions payouts)).foldl charge retryMap) := by
  rw [execute]
  split
  · next hdue => rw [hdue]; rfl
  · next g due hdue =>
      rw [hdue]
      split
      · next hnone => rw [hnone]; rfl
      · next a batch hsome => rw [hsome, client, List.all_map]; rfl

/-- A batch with a group that cannot be paid costs every group of it. -/
theorem execute_blocked (h : Blocked payable contributions payouts retryMap) :
    execute (client payable) contributions payouts retryMap key =
      retryMap key + (if retryMap key < MAX_RETRIES
        then times (findDueGroups contributions payouts) key else 0) := by
  obtain ⟨u, hu, hpay, hlow⟩ := h
  have hfail : ¬ ((actionable retryMap (findDueGroups contributions payouts)).all
      fun g => payable g.groupId) = true := by
    intro hall
    have := List.all_eq_true.mp hall u (mem_actionable.mpr ⟨hu, hlow⟩)
    rw [hpay] at this
    cases this
  rw [execute_eq, if_neg hfail, foldl_charge, times_actionable]

/-- A batch that goes through forgives every group of it. -/
theorem execute_free (h : ¬ Blocked payable contributions payouts retryMap) {g : DueGroup}
    (hg : g ∈ findDueGroups contributions payouts) :
    execute (client payable) contributions payouts retryMap g.key =
      if retryMap g.key < MAX_RETRIES then 0 else retryMap g.key := by
  have hall : ((actionable retryMap (findDueGroups contributions payouts)).all
      fun g => payable g.groupId) = true := by
    refine List.all_eq_true.mpr fun u hu => ?_
    obtain ⟨hdue, hlow⟩ := mem_actionable.mp hu
    cases hpay : payable u.groupId with
    | true => rfl
    | false => exact absurd ⟨u, hdue, hpay, hlow⟩ h
  rw [execute_eq, if_pos hall, foldl_clear]
  by_cases hlow : retryMap g.key < MAX_RETRIES
  · rw [if_pos hlow, if_pos ⟨g, mem_actionable.mpr ⟨hg, hlow⟩, rfl⟩]
  · rw [if_neg hlow, if_neg]
    rintro ⟨a, ha, hkey⟩
    exact hlow (hkey ▸ (mem_actionable.mp ha).2)

/-- One more failure of a batch, for a key that counts so often. -/
theorem charged_succ {count : Nat} (hcount : 0 < count) :
    min n (failuresFor count) * count +
        (if min n (failuresFor count) * count < MAX_RETRIES then count else 0) =
      min (n + 1) (failuresFor count) * count := by
  by_cases h : n < failuresFor count
  · have hreach := (count_reaches hcount).mp h
    rw [Nat.min_eq_left h.le, Nat.min_eq_left h, if_pos hreach, Nat.succ_mul]
  · have hreach := mt (count_reaches hcount).mpr (Nat.lt_irrefl (failuresFor count))
    rw [Nat.min_eq_right (Nat.le_of_not_lt h), Nat.min_eq_right (by omega), if_neg hreach, Nat.add_zero]

/-- A group that cannot be paid is charged until it is at the limit. -/
theorem retries_unpayable {u : DueGroup} (hu : u ∈ findDueGroups contributions payouts)
    (hpay : payable u.groupId = false) :
    retries payable contributions payouts n u.key =
      min n (failuresFor (times (findDueGroups contributions payouts) u.key)) *
        times (findDueGroups contributions payouts) u.key := by
  have hcount := times_pos hu
  induction n with
  | zero =>
      rw [Nat.zero_min, Nat.zero_mul]
      rfl
  | succ n ih =>
      rw [← charged_succ hcount, ← ih, retries]
      by_cases hlow : retries payable contributions payouts n u.key < MAX_RETRIES
      · rw [execute_blocked ⟨u, hu, hpay, hlow⟩]
      · rw [if_neg hlow, Nat.add_zero]
        by_cases hblocked : Blocked payable contributions payouts
            (retries payable contributions payouts n)
        · rw [execute_blocked hblocked, if_neg hlow, Nat.add_zero]
        · rw [execute_free hblocked hu, if_neg hlow]

/-- So long the batches fail. -/
theorem blocked_iff : Blocked payable contributions payouts (retries payable contributions payouts n) ↔
    ∃ u ∈ findDueGroups contributions payouts, payable u.groupId = false ∧
      n < failuresFor (times (findDueGroups contributions payouts) u.key) := by
  refine exists_congr fun u => and_congr_right fun hu => and_congr_right fun hpay => ?_
  have hcount := times_pos hu
  rw [retries_unpayable hu hpay]
  constructor
  · intro h
    by_contra hge
    rw [Nat.min_eq_right (Nat.le_of_not_lt hge)] at h
    exact Nat.lt_irrefl _ ((count_reaches hcount).mpr h)
  · intro h
    rw [Nat.min_eq_left h.le]
    exact (count_reaches hcount).mp h

/-- And so long any other due group is charged with them. -/
theorem retries_blocked {g u : DueGroup} (hg : g ∈ findDueGroups contributions payouts)
    (hu : u ∈ findDueGroups contributions payouts) (hpay : payable u.groupId = false)
    (hn : n ≤ failuresFor (times (findDueGroups contributions payouts) u.key)) :
    retries payable contributions payouts n g.key =
      min n (failuresFor (times (findDueGroups contributions payouts) g.key)) *
        times (findDueGroups contributions payouts) g.key := by
  induction n with
  | zero =>
      rw [Nat.zero_min, Nat.zero_mul]
      rfl
  | succ n ih =>
      rw [retries, execute_blocked (blocked_iff.mpr ⟨u, hu, hpay, hn⟩), ih (by omega),
        charged_succ (times_pos hg)]

/-- **NO GROUP STARVES EXACTLY WHEN** a payable one, charged with every group that cannot be
    paid until that one is at the limit, stays below it. -/
theorem retries_below_iff (payable : JsString → Bool) (contributions payouts : List EventData)
    (n : Nat) :
    (∀ g ∈ findDueGroups contributions payouts, payable g.groupId = true →
        retries payable contributions payouts n g.key < MAX_RETRIES) ↔
      ∀ g ∈ findDueGroups contributions payouts, payable g.groupId = true →
        ∀ u ∈ findDueGroups contributions payouts, payable u.groupId = false →
          min n (failuresFor (times (findDueGroups contributions payouts) u.key)) *
            times (findDueGroups contributions payouts) g.key < MAX_RETRIES := by
  refine forall_congr' fun g => forall_congr' fun hg => forall_congr' fun _ => ?_
  have hcount := times_pos hg
  -- by induction on the rounds: a group that is due stays due
  induction n with
  | zero =>
      simp only [Nat.zero_min, Nat.zero_mul]
      exact ⟨fun h _ _ _ => h, fun _ => Nat.zero_lt_succ 2⟩
  | succ n ih =>
      by_cases hblocked : Blocked payable contributions payouts
          (retries payable contributions payouts n)
      · -- this run fails: the group was charged in all of them
        obtain ⟨u, hu, hpay, hn⟩ := blocked_iff.mp hblocked
        rw [retries_blocked hg hu hpay hn]
        constructor
        · intro h v _ _
          have hlow : n + 1 < failuresFor (times (findDueGroups contributions payouts) g.key) := by
            by_contra hge
            rw [Nat.min_eq_right (Nat.le_of_not_lt hge)] at h
            exact Nat.lt_irrefl _ ((count_reaches hcount).mpr h)
          exact lt_of_le_of_lt (Nat.mul_le_mul_right _ (Nat.min_le_left _ _))
            ((count_reaches hcount).mp hlow)
        · intro h
          have hu' := h u hu hpay
          rw [Nat.min_eq_left hn] at hu'
          exact lt_of_le_of_lt (Nat.mul_le_mul_right _ (Nat.min_le_left _ _)) hu'
      · -- nothing that cannot be paid is left in the batch: who is below stays below
        have hover : ∀ u ∈ findDueGroups contributions payouts, payable u.groupId = false →
            failuresFor (times (findDueGroups contributions payouts) u.key) ≤ n := by
          intro u hu hpay
          by_contra hlt
          exact hblocked (blocked_iff.mpr ⟨u, hu, hpay, Nat.lt_of_not_le hlt⟩)
        have hsame : retries payable contributions payouts (n + 1) g.key < MAX_RETRIES ↔
            retries payable contributions payouts n g.key < MAX_RETRIES := by
          rw [retries, execute_free hblocked hg]
          split
          · next hlow => exact ⟨fun _ => hlow, fun _ => Nat.zero_lt_succ 2⟩
          · exact Iff.rfl
        refine hsame.trans (ih.trans ?_)
        refine forall_congr' fun u => forall_congr' fun hu => forall_congr' fun hpay => ?_
        have := hover u hu hpay
        rw [Nat.min_eq_right this, Nat.min_eq_right (by omega)]

/-- A contribution to the first cycle of a group. -/
def contribution (group member : String) : EventData where
  group_id := some (lit group)
  groupId := none
  cycle_number := some (.number 1)
  cycleNumber := none
  member := some (lit member)
  address := none

/-- Two groups of two members each. -/
def twoGroups : List EventData :=
  [contribution "a" "m1", contribution "a" "m2", contribution "b" "m1", contribution "b" "m2"]

/-- After three runs with a group that cannot be paid, the other is given up as well. -/
theorem good_group_given_up :
    ∃ g ∈ findDueGroups twoGroups [], decide (g.groupId = lit "a") = true ∧
      ¬ retries (fun groupId => decide (groupId = lit "a")) twoGroups [] 3 g.key < MAX_RETRIES := by
  refine ⟨⟨lit "a", some 1, 2⟩, ?_, ?_, ?_⟩
  · have hdue : findDueGroups twoGroups [] = [⟨lit "a", some 1, 2⟩, ⟨lit "b", some 1, 2⟩] := by rfl
    rw [hdue]
    exact List.mem_cons_self
  · decide
  · decide

end Run

end Keeper
