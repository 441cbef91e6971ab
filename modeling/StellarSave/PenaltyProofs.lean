import StellarSave.BalanceProofs
import StellarSave.RotationProofs

/-! # Penalties — a count, a total and the records behind them

    A missed cycle files a record and raises the member's count and total; a
    recovery takes one off the count, pays into the group what the member brings and
    marks the first open record of the cycle it names. -/

namespace SavePenalty

open HostProg Footprint TokenLedger SaveData SaveMembership SaveAdmin SaveCall Trace SaveBalance

/-- The records of a member. -/
abbrev historyAt (s : State) (g : Nat) (m : Address) : List PenaltyRecord :=
  (readAt (List PenaltyRecord) s.persistent (.penHi g m)).getD []

/-- The count and the total of a member. -/
abbrev penaltyAt (s : State) (g : Nat) (m : Address) : MemberPenaltyState :=
  (readAt MemberPenaltyState s.persistent (.penSt g m)).getD ⟨0, 0⟩

abbrev configAt (s : State) (g : Nat) : PenaltyConfig :=
  (readAt PenaltyConfig s.persistent (.penCfg g)).getD .default

section Ok

variable {env : Env} {s t : State} {g cycle missed : Nat} {m : Address} {n amount : Int} {u : Unit}
  {config : PenaltyConfig}

/-- A sum that saturates does not turn negative. -/
theorem saturatingI128_nonneg (h : 0 ≤ n) : 0 ≤ saturatingI128 n := by
  rw [saturatingI128]
  have hbound : (0 : Int) < i128Bound := by decide
  omega

/-- Nothing is ever charged backwards. -/
theorem calculatePenalty_nonneg (amount : Int) (missed : Nat) (config : PenaltyConfig) :
    0 ≤ calculatePenalty amount missed config := by
  rw [calculatePenalty]
  split
  · exact Int.le_refl 0
  · next h =>
      rw [not_or, Int.not_le] at h
      have hwhole : 0 ≤ amount / 10000 := Int.ediv_nonneg (Int.le_of_lt h.2) (by decide)
      have hpart : 0 ≤ amount % 10000 := Int.emod_nonneg amount (by decide)
      have hbps : ∀ a b : Nat, (0 : Int) ≤ min (a : Int) b := fun a b => by omega
      exact saturatingI128_nonneg (Int.add_nonneg
        (saturatingI128_nonneg (Int.mul_nonneg hwhole (hbps _ _)))
        (Int.ediv_nonneg (Int.mul_nonneg hpart (hbps _ _)) (by decide)))

/-- What a penalty leaves in the member's two entries. -/
theorem applyPenalty_ok (h : applyPenalty g m cycle env s = .ok n t) :
    0 ≤ n ∧ penaltyAt t g m =
        ⟨saturatingU32 ((penaltyAt s g m).missedCycles + 1), (penaltyAt s g m).totalPenalty + n⟩ ∧
      historyAt t g m = historyAt s g m ++ [⟨cycle, n, env.timestamp, false⟩] ∧
      ∀ m', m' ≠ m → t.persistent (.penSt g m') = s.persistent (.penSt g m') ∧
        t.persistent (.penHi g m') = s.persistent (.penHi g m') := by
  simp [applyPenalty] at h
  obtain ⟨grp, -, -, -, -, h⟩ := h
  have hnonneg := calculatePenalty_nonneg grp.contributionAmount
    (saturatingU32 ((penaltyAt s g m).missedCycles + 1)) (configAt s g)
  rcases h with ⟨-, -, -, -, rfl, rfl⟩ | ⟨hzero, -, rfl, rfl⟩
  · refine ⟨hnonneg, by simp [penaltyAt], by simp [historyAt], fun m' hm' => ?_⟩
    simp [hm']
  · -- nothing is charged, so nothing is added
    have hnone := Int.le_antisymm hzero hnonneg
    refine ⟨hnonneg, ?_, by simp [historyAt], fun m' hm' => ?_⟩
    · rw [hnone, Int.add_zero]
      simp [penaltyAt]
    · simp [hm']

/-- What the member owes for one recovery. -/
def recoveryDue (grp : SaveData.Group) (config : PenaltyConfig) : Int :=
  grp.contributionAmount + (grp.contributionAmount * config.recoveryFeeBps).tdiv 10000

/-- What a recovery leaves in the member's two entries and in the group's balance. -/
theorem recoverPenalty_ok (h : recoverPenalty g m cycle n env s = .ok u t) :
    (∃ grp, readAt SaveData.Group s.persistent (.grp g) = some grp ∧
        recoveryDue grp (configAt s g) ≤ n) ∧
      (penaltyAt s g m).missedCycles ≠ 0 ∧ grpBalAt t g = grpBalAt s g + n ∧
      penaltyAt t g m = ⟨(penaltyAt s g m).missedCycles - 1,
        if (penaltyAt s g m).missedCycles - 1 = 0 then 0 else (penaltyAt s g m).totalPenalty⟩ ∧
      historyAt t g m = markRecovered cycle (historyAt s g m) ∧
      ∀ m', m' ≠ m → t.persistent (.penSt g m') = s.persistent (.penSt g m') ∧
        t.persistent (.penHi g m') = s.persistent (.penHi g m') := by
  simp [recoverPenalty] at h
  obtain ⟨-, grp, hgrp, -, -, hmissed, -, -, -, hdue, -, -, -, rfl⟩ := h
  refine ⟨⟨grp, hgrp, hdue⟩, hmissed, by simp [grpBalAt], by simp [penaltyAt], by simp [historyAt],
    fun m' hm' => ?_⟩
  simp [hm']

end Ok

/-! ## The records -/

/-- The records that are not recovered. -/
def openRecords (history : List PenaltyRecord) : List PenaltyRecord :=
  history.filter fun rec => rec.recovered = false

/-- What they amount to. -/
def openSum (history : List PenaltyRecord) : Int := ((openRecords history).map PenaltyRecord.amount).sum

/-- The cycle has an open record. -/
def HasOpen (history : List PenaltyRecord) (cycle : Nat) : Prop :=
  ∃ rec ∈ history, rec.cycleId = cycle ∧ rec.recovered = false

/-- What may become of a list of records: nothing, one more that is open, or one that
    was open and no longer is. -/
inductive Moves : List PenaltyRecord → List PenaltyRecord → Prop
  | same (history : List PenaltyRecord) : Moves history history
  | filed (history : List PenaltyRecord) (rec : PenaltyRecord) (h : rec.recovered = false) :
      Moves history (history ++ [rec])
  | settled (before : List PenaltyRecord) (rec : PenaltyRecord) (after : List PenaltyRecord)
      (h : rec.recovered = false) :
      Moves (before ++ rec :: after) (before ++ { rec with recovered := true } :: after)

section Records

variable {history before after : List PenaltyRecord} {rec : PenaltyRecord} {cycle : Nat}

/-- The first open record of the cycle is marked, by induction along the records. -/
theorem markRecovered_of_open (h : HasOpen history cycle) :
    ∃ before rec after, history = before ++ rec :: after ∧ rec.cycleId = cycle ∧ rec.recovered = false ∧
      markRecovered cycle history = before ++ { rec with recovered := true } :: after := by
  induction history with
  | nil =>
      obtain ⟨rec, hrec, -⟩ := h
      cases hrec
  | cons first rest ih =>
      by_cases hfirst : first.cycleId = cycle ∧ first.recovered = false
      · exact ⟨[], first, rest, rfl, hfirst.1, hfirst.2, by rw [markRecovered, if_pos hfirst]; rfl⟩
      · have hrest : HasOpen rest cycle := by
          obtain ⟨rec, hrec, hopen⟩ := h
          rcases List.mem_cons.mp hrec with rfl | hrec
          · exact absurd hopen hfirst
          · exact ⟨rec, hrec, hopen⟩
        obtain ⟨before, rec, after, rfl, hcycle, hopen, hmark⟩ := ih hrest
        refine ⟨first :: before, rec, after, rfl, hcycle, hopen, ?_⟩
        rw [markRecovered, if_neg hfirst, hmark]
        rfl

/-- Where no record of the cycle is open there is nothing to mark. -/
theorem markRecovered_of_not_open (h : ¬ HasOpen history cycle) : markRecovered cycle history = history := by
  induction history with
  | nil => rfl
  | cons first rest ih =>
      have hfirst : ¬ (first.cycleId = cycle ∧ first.recovered = false) :=
        fun hopen => h ⟨first, List.mem_cons_self, hopen⟩
      have hrest : ¬ HasOpen rest cycle := by
        rintro ⟨rec, hrec, hopen⟩
        exact h ⟨rec, List.mem_cons_of_mem _ hrec, hopen⟩
      rw [markRecovered, if_neg hfirst, ih hrest]

/-- To mark a record is one of the moves a history makes. -/
theorem moves_markRecovered (history : List PenaltyRecord) (cycle : Nat) :
    Moves history (markRecovered cycle history) := by
  by_cases h : HasOpen history cycle
  · obtain ⟨before, rec, after, rfl, -, hopen, hmark⟩ := markRecovered_of_open h
    rw [hmark]
    exact .settled before rec after hopen
  · rw [markRecovered_of_not_open h]
    exact .same history

/-- Open records are so one by one. -/
theorem openRecords_append (before after : List PenaltyRecord) :
    openRecords (before ++ after) = openRecords before ++ openRecords after := List.filter_append before after

/-- An open one counts. -/
theorem openRecords_cons_open (h : rec.recovered = false) :
    openRecords (rec :: after) = rec :: openRecords after :=
  List.filter_cons_of_pos (by rw [h]; rfl)

/-- A recovered one does not. -/
theorem openRecords_cons_recovered (h : rec.recovered = true) :
    openRecords (rec :: after) = openRecords after :=
  List.filter_cons_of_neg (by rw [h]; decide)

/-- Of the open records one is gone. -/
theorem openRecords_settled (h : rec.recovered = false) :
    (openRecords (before ++ { rec with recovered := true } :: after)).length + 1 =
      (openRecords (before ++ rec :: after)).length := by
  have hmarked : openRecords ({ rec with recovered := true } :: after) = openRecords after :=
    openRecords_cons_recovered rfl
  rw [openRecords_append, openRecords_append, openRecords_cons_open h, hmarked, List.length_append,
    List.length_append, List.length_cons]
  rfl

/-- To mark one leaves one fewer open. -/
theorem length_openRecords_markRecovered (h : HasOpen history cycle) :
    (openRecords (markRecovered cycle history)).length + 1 = (openRecords history).length := by
  obtain ⟨before, rec, after, rfl, -, hopen, hmark⟩ := markRecovered_of_open h
  rw [hmark, openRecords_settled hopen]

/-- One more record. -/
theorem openRecords_filed (history : List PenaltyRecord) (h : rec.recovered = false) :
    (openRecords (history ++ [rec])).length = (openRecords history).length + 1 ∧
      openSum (history ++ [rec]) = openSum history + rec.amount := by
  have hlast : openRecords (history ++ [rec]) = openRecords history ++ [rec] := by
    rw [openRecords_append, openRecords_cons_open h]
    rfl
  rw [openSum, hlast, List.length_append, List.map_append, List.sum_append]
  exact ⟨rfl, by simp [openSum]⟩

/-- Without open records there is nothing to recover. -/
theorem openSum_of_length_zero (h : (openRecords history).length = 0) : openSum history = 0 := by
  rw [openSum, List.eq_nil_of_length_eq_zero h]
  rfl

/-- The record with an index is recovered. -/
def recoveredAt (history : List PenaltyRecord) (i : Nat) : Bool := (history[i]?).any (·.recovered)

/-- A record keeps its place and what it says, but that it may become recovered. -/
theorem Moves.keeps {later : List PenaltyRecord} {i : Nat} (h : Moves history later)
    (hrec : history[i]? = some rec) :
    later[i]? = some rec ∨ later[i]? = some { rec with recovered := true } := by
  cases h with
  | same => exact .inl hrec
  | filed new hnew =>
      have hlt : i < history.length := (List.getElem?_eq_some_iff.mp hrec).1
      rw [List.getElem?_append_left hlt]
      exact .inl hrec
  | settled before old after hold =>
      rcases Nat.lt_trichotomy i before.length with hlt | rfl | hgt
      · rw [List.getElem?_append_left hlt] at hrec ⊢
        exact .inl hrec
      · rw [List.getElem?_append_right (Nat.le_refl _), Nat.sub_self] at hrec ⊢
        obtain rfl := Option.some.inj hrec
        exact .inr rfl
      · obtain ⟨k, hk⟩ := Nat.exists_eq_add_of_lt hgt
        have hpast : i - before.length = k + 1 := by omega
        rw [List.getElem?_append_right (Nat.le_of_lt hgt), hpast] at hrec ⊢
        exact .inl hrec

/-- A record stays recovered. -/
theorem Moves.recoveredAt {later : List PenaltyRecord} {i : Nat} (h : Moves history later)
    (hi : recoveredAt history i = true) : recoveredAt later i = true := by
  rw [SavePenalty.recoveredAt] at hi ⊢
  cases hrec : history[i]? with
  | none =>
      rw [hrec] at hi
      cases hi
  | some rec =>
      rw [hrec] at hi
      rcases h.keeps hrec with hkept | hmarked
      · rw [hkept]
        exact hi
      · rw [hmarked]
        rfl

end Records

/-! ## Runs -/

/-- The group and the member a penalty call is about. -/
def penaltyCall : Call → Option (Nat × Address)
  | .applyPenalty g m _ | .recoverPenalty g m _ _ => some (g, m)
  | _ => none

/-- Nothing was ever filed. -/
structure Unpenalised (s : State) (g : Nat) (m : Address) : Prop where
  penalty : s.persistent (.penSt g m) = none
  history : s.persistent (.penHi g m) = none

/-- A recovery that ends well pays into the group what the member brings, and that is
    no less than what is due. -/
def Credits (g : Nat) (m : Address) : Step → State → Prop
  | .call env (.recoverPenalty g' m' cycle n), s => g' = g → m' = m →
      ∀ t, (Call.recoverPenalty g' m' cycle n).body env s = .ok () t →
        grpBalAt t g = grpBalAt s g + n ∧
          ∃ grp, readAt SaveData.Group s.persistent (.grp g) = some grp ∧
            recoveryDue grp (configAt s g) ≤ n
  | _, _ => True

/-- A recovery that ends well names a cycle with an open record; a record is filed only
    where a vector still has room. -/
def NamesOpen (g : Nat) (m : Address) : Step → State → Prop
  | .call env (.recoverPenalty g' m' cycle n), s => g' = g → m' = m →
      Succeeds (Call.recoverPenalty g' m' cycle n).body env s → HasOpen (historyAt s g m) cycle
  | .call env (.applyPenalty g' m' cycle), s => g' = g → m' = m →
      Succeeds (Call.applyPenalty g' m' cycle).body env s → (historyAt s g m).length < u32Max
  | _, _ => True

/-- And the record is the only open one. -/
def NamesOnlyOpen (g : Nat) (m : Address) (x : Step) (s : State) : Prop :=
  NamesOpen g m x s ∧
    match x with
    | .call env (.recoverPenalty g' m' cycle n) => g' = g → m' = m →
        Succeeds (Call.recoverPenalty g' m' cycle n).body env s →
          (openRecords (historyAt s g m)).length = 1
    | _ => True

section Step

variable {env : Env} {s t : State} {g : Nat} {m : Address} {c : Call} {x : Step}

/-- Only the penalty calls of a member touch the member's two entries. -/
theorem penalty_untouched (hc : penaltyCall c ≠ some (g, m)) (h : c.body env s = .ok () t) :
    t.persistent (.penSt g m) = s.persistent (.penSt g m) ∧
      t.persistent (.penHi g m) = s.persistent (.penHi g m) := by
  have hagree := Within.agree_ok (w := c.footprint) h
  cases c with
  | applyPenalty g' m' cycle =>
      by_cases hg : g' = g
      · subst hg
        have hm : m ≠ m' := fun hm => hc (by rw [penaltyCall, hm])
        obtain ⟨n, hn⟩ := quietly_ok.mp h
        exact (applyPenalty_ok hn).2.2.2 m hm
      · exact ⟨hagree.persistent _ (by simp [Ne.symm hg]), hagree.persistent _ (by simp [Ne.symm hg])⟩
  | recoverPenalty g' m' cycle n =>
      by_cases hg : g' = g
      · subst hg
        have hm : m ≠ m' := fun hm => hc (by rw [penaltyCall, hm])
        exact (recoverPenalty_ok h).2.2.2.2.2 m hm
      · exact ⟨hagree.persistent _ (by simp [Ne.symm hg]), hagree.persistent _ (by simp [Ne.symm hg])⟩
  | _ =>
      exact ⟨hagree.persistent _ (Place.other_kind rfl), hagree.persistent _ (Place.other_kind rfl)⟩

/-- A call that leaves both keys alone leaves the book alone. -/
theorem same_of_untouched (h : t.persistent (.penSt g m) = s.persistent (.penSt g m) ∧
      t.persistent (.penHi g m) = s.persistent (.penHi g m)) :
    penaltyAt t g m = penaltyAt s g m ∧ historyAt t g m = historyAt s g m := by
  rw [penaltyAt, historyAt, readAt_congr h.1, readAt_congr h.2]
  exact ⟨rfl, rfl⟩

/-- Every call moves the history as a history can. -/
theorem moves_call (h : c.body env s = .ok () t) : Moves (historyAt s g m) (historyAt t g m) := by
  by_cases hc : penaltyCall c = some (g, m)
  · cases c with
    | applyPenalty g' m' cycle =>
        obtain ⟨rfl, rfl⟩ := Prod.mk.inj (Option.some.inj hc)
        obtain ⟨n, hn⟩ := quietly_ok.mp h
        rw [(applyPenalty_ok hn).2.2.1]
        exact .filed _ _ rfl
    | recoverPenalty g' m' cycle n =>
        obtain ⟨rfl, rfl⟩ := Prod.mk.inj (Option.some.inj hc)
        rw [(recoverPenalty_ok h).2.2.2.2.1]
        exact moves_markRecovered _ _
    | _ => cases hc
  · rw [(same_of_untouched (penalty_untouched hc h)).2]
    exact .same _

/-- **ONE STEP** moves the records of a member at most by one. -/
theorem moves_apply (x : Step) (s : State) : Moves (historyAt s g m) (historyAt (apply x s) g m) := by
  cases x with
  | call env c =>
      rcases commit_eq_or c env s with ⟨t, ht, he⟩ | ⟨-, he⟩
      · show Moves _ (historyAt (commit c.body env s) g m)
        rw [he]
        exact moves_call ht
      · show Moves _ (historyAt (commit c.body env s) g m)
        rw [he]
        exact .same _
  | expire => exact .same _
  | external l => exact .same _

/-- Every recovery that ends well pays in what the member brings, which is no less than what
    is due. -/
theorem credits_apply (x : Step) (s : State) : Credits g m x s := by
  cases x with
  | call env c =>
      cases c with
      | recoverPenalty g' m' cycle n =>
          rintro rfl rfl t ht
          obtain ⟨hdue, -, hbalance, -⟩ := recoverPenalty_ok ht
          exact ⟨hbalance, hdue⟩
      | _ => trivial
  | expire => trivial
  | external l => trivial

/-- The count is that of the open records. -/
def Counted (s : State) (g : Nat) (m : Address) : Prop :=
  (penaltyAt s g m).missedCycles = (openRecords (historyAt s g m)).length

/-- The total is what they amount to. -/
def Summed (s : State) (g : Nat) (m : Address) : Prop :=
  (penaltyAt s g m).totalPenalty = openSum (historyAt s g m)

/-- A call that recovers a cycle only where a record of it is open keeps the count. -/
theorem counted_call (hC : NamesOpen g m (.call env c) s) (hs : Counted s g m)
    (h : c.body env s = .ok () t) : Counted t g m := by
  rw [Counted] at hs ⊢
  by_cases hc : penaltyCall c = some (g, m)
  · cases c with
    | applyPenalty g' m' cycle =>
        obtain ⟨rfl, rfl⟩ := Prod.mk.inj (Option.some.inj hc)
        have hroom := hC rfl rfl ⟨_, _, h⟩
        obtain ⟨n, hn⟩ := quietly_ok.mp h
        obtain ⟨-, hpenalty, hhistory, -⟩ := applyPenalty_ok hn
        have hle : (openRecords (historyAt s g' m')).length ≤ (historyAt s g' m').length :=
          List.length_filter_le _ _
        rw [hpenalty, hhistory, (openRecords_filed _ rfl).1, hs]
        show min ((openRecords (historyAt s g' m')).length + 1) u32Max = _
        omega
    | recoverPenalty g' m' cycle n =>
        obtain ⟨rfl, rfl⟩ := Prod.mk.inj (Option.some.inj hc)
        have hopen := length_openRecords_markRecovered (hC rfl rfl ⟨_, _, h⟩)
        obtain ⟨-, -, -, hpenalty, hhistory, -⟩ := recoverPenalty_ok h
        rw [hpenalty, hhistory]
        show (penaltyAt s g' m').missedCycles - 1 = _
        omega
    | _ => cases hc
  · obtain ⟨hpenalty, hhistory⟩ := same_of_untouched (penalty_untouched hc h)
    rw [hpenalty, hhistory, hs]

/-- And the sum, if that record is the only open one. -/
theorem summed_call (hC : NamesOnlyOpen g m (.call env c) s) (hs : Counted s g m ∧ Summed s g m)
    (h : c.body env s = .ok () t) : Counted t g m ∧ Summed t g m := by
  refine ⟨counted_call hC.1 hs.1 h, ?_⟩
  obtain ⟨hcounted, hsummed⟩ := hs
  rw [Counted] at hcounted
  rw [Summed] at hsummed ⊢
  -- a penalty opens a record with its amount, a recovery closes the only one
  by_cases hc : penaltyCall c = some (g, m)
  · cases c with
    | applyPenalty g' m' cycle =>
        obtain ⟨rfl, rfl⟩ := Prod.mk.inj (Option.some.inj hc)
        obtain ⟨n, hn⟩ := quietly_ok.mp h
        obtain ⟨-, hpenalty, hhistory, -⟩ := applyPenalty_ok hn
        rw [hpenalty, hhistory, (openRecords_filed _ rfl).2]
        exact congrArg (· + n) hsummed
    | recoverPenalty g' m' cycle n =>
        obtain ⟨rfl, rfl⟩ := Prod.mk.inj (Option.some.inj hc)
        have hopen := length_openRecords_markRecovered (hC.1 rfl rfl ⟨_, _, h⟩)
        have hone := hC.2 rfl rfl ⟨_, _, h⟩
        obtain ⟨-, -, -, hpenalty, hhistory, -⟩ := recoverPenalty_ok h
        have hnone : (openRecords (markRecovered cycle (historyAt s g' m'))).length = 0 := by omega
        have hlast : (penaltyAt s g' m').missedCycles - 1 = 0 := by omega
        rw [hpenalty, hhistory, openSum_of_length_zero hnone]
        exact if_pos hlast
    | _ => cases hc
  · obtain ⟨hpenalty, hhistory⟩ := same_of_untouched (penalty_untouched hc h)
    rw [hpenalty, hhistory, hsummed]

/-- The same of any step of a run. -/
theorem counted_apply (x : Step) (s : State) (hC : NamesOpen g m x s) (hs : Counted s g m) :
    Counted (apply x s) g m :=
  apply_invariant (C := NamesOpen g m) (I := fun t => Counted t g m)
    (fun _ _ _ _ hC hs h => counted_call hC hs h) (fun _ h => h) (fun _ _ h => h) x s hC hs

/-- The same of the sum. -/
theorem summed_apply (x : Step) (s : State) (hC : NamesOnlyOpen g m x s)
    (hs : Counted s g m ∧ Summed s g m) : Counted (apply x s) g m ∧ Summed (apply x s) g m :=
  apply_invariant (C := NamesOnlyOpen g m) (I := fun t => Counted t g m ∧ Summed t g m)
    (fun _ _ _ _ hC hs h => summed_call hC hs h) (fun _ h => h) (fun _ _ h => h) x s hC hs

/-- Before any penalty both are zero. -/
theorem counted_of_unpenalised (h : Unpenalised s g m) : Counted s g m ∧ Summed s g m := by
  have hpenalty : penaltyAt s g m = ⟨0, 0⟩ := by
    rw [penaltyAt, readAt, h.penalty]
    rfl
  have hhistory : historyAt s g m = [] := by
    rw [historyAt, readAt, h.history]
    rfl
  rw [Counted, Summed, hpenalty, hhistory]
  exact ⟨rfl, rfl⟩

end Step

/-- **THE PENALTY BOOK**: in every run each record is recovered at most once and the
    records only ever move by one; a recovery pays in what the member brings; while
    every recovery names a cycle with an open record, the count is that of the open
    records, and while that record is the only one, the total is what they amount to. -/
theorem penalty_book (s : State) (g : Nat) (m : Address) (hs : Unpenalised s g m) (steps : List Step) :
    (∀ i, total apply (fun x t => if ¬ recoveredAt (historyAt t g m) i = true ∧
        recoveredAt (historyAt (apply x t) g m) i = true then 1 else 0) steps s ≤ 1) ∧
      Along apply (fun x t => Moves (historyAt t g m) (historyAt (apply x t) g m)) steps s ∧
      Along apply (Credits g m) steps s ∧
      (Along apply (NamesOpen g m) steps s →
        (penaltyAt (run steps s) g m).missedCycles =
          (openRecords (historyAt (run steps s) g m)).length) ∧
      (Along apply (NamesOnlyOpen g m) steps s →
        (penaltyAt (run steps s) g m).totalPenalty = openSum (historyAt (run steps s) g m)) := by
  obtain ⟨hcounted, hsummed⟩ := counted_of_unpenalised hs
  refine ⟨fun i => ?_, ?_, ?_, fun hrun => ?_, fun hrun => ?_⟩
  · have honce := total_arrivals_le_one (P := fun t => recoveredAt (historyAt t g m) i = true)
      (fun x t ht => (moves_apply x t).recoveredAt ht) steps s
    refine Int.le_trans honce ?_
    split <;> decide
  · exact along_of_invariant (C := fun _ _ => True) (I := fun _ => True)
      (fun x t _ _ => ⟨moves_apply x t, trivial⟩) trivial (along_true apply steps s)
  · exact along_of_invariant (C := fun _ _ => True) (I := fun _ => True)
      (fun x t _ _ => ⟨credits_apply x t, trivial⟩) trivial (along_true apply steps s)
  · exact exec_invariant (I := fun t => Counted t g m) counted_apply hcounted hrun
  · exact (exec_invariant (I := fun t => Counted t g m ∧ Summed t g m) summed_apply
      ⟨hcounted, hsummed⟩ hrun).2

/-! One member of a group of a hundred a cycle. -/

open SaveRoster (soloState trioEnv)

/-- A penalty for the first cycle, and one for the second. -/
def missedTwo : List Step :=
  [.call trioEnv (.applyPenalty 1 ⟨1⟩ 0), .call trioEnv (.applyPenalty 1 ⟨1⟩ 1)]

/-- A recovery of a cycle. -/
def recovery (cycle : Nat) : Step := .call trioEnv (.recoverPenalty 1 ⟨1⟩ cycle 110)

/-- What is paid in is not what the record says, what was recovered stays in the total,
    and a recovery of another cycle takes one off the count for nothing. -/
theorem recovery_is_not_the_record :
    (historyAt (run missedTwo soloState) 1 ⟨1⟩ = [⟨0, 5, 10, false⟩, ⟨1, 10, 10, false⟩] ∧
      historyAt (run (missedTwo ++ [recovery 0]) soloState) 1 ⟨1⟩ =
        [⟨0, 5, 10, true⟩, ⟨1, 10, 10, false⟩] ∧
      grpBalAt (run (missedTwo ++ [recovery 0]) soloState) 1 =
        grpBalAt (run missedTwo soloState) 1 + 110) ∧
    ((penaltyAt (run (missedTwo ++ [recovery 0]) soloState) 1 ⟨1⟩).totalPenalty = 15 ∧
      openSum (historyAt (run (missedTwo ++ [recovery 0]) soloState) 1 ⟨1⟩) = 10) ∧
    (penaltyAt (run (missedTwo ++ [recovery 9]) soloState) 1 ⟨1⟩).missedCycles = 1 ∧
      (openRecords (historyAt (run (missedTwo ++ [recovery 9]) soloState) 1 ⟨1⟩)).length = 2 := by
  decide +kernel

/-- Both cycles are missed and the first is recovered. -/
theorem penalty_book_of_three :
    Along apply (NamesOpen 1 ⟨1⟩) (missedTwo ++ [recovery 0]) soloState ∧
      (penaltyAt (run (missedTwo ++ [recovery 0]) soloState) 1 ⟨1⟩).missedCycles =
        (openRecords (historyAt (run (missedTwo ++ [recovery 0]) soloState) 1 ⟨1⟩)).length := by
  have hroom : (historyAt soloState 1 ⟨1⟩).length < u32Max ∧
      (historyAt (run [.call trioEnv (.applyPenalty 1 ⟨1⟩ 0)] soloState) 1 ⟨1⟩).length < u32Max := by
    decide +kernel
  have hopen : HasOpen (historyAt (run missedTwo soloState) 1 ⟨1⟩) 0 := by
    have hhistory : historyAt (run missedTwo soloState) 1 ⟨1⟩ =
        [⟨0, 5, 10, false⟩, ⟨1, 10, 10, false⟩] := by
      decide +kernel
    rw [hhistory]
    exact ⟨_, List.mem_cons_self, rfl, rfl⟩
  have hrun : Along apply (NamesOpen 1 ⟨1⟩) (missedTwo ++ [recovery 0]) soloState :=
    ⟨fun _ _ _ => hroom.1, fun _ _ _ => hroom.2, fun _ _ _ => hopen, trivial⟩
  exact ⟨hrun, (penalty_book soloState 1 ⟨1⟩ ⟨rfl, rfl⟩ (missedTwo ++ [recovery 0])).2.2.2.1 hrun⟩

end SavePenalty
