import StellarSave.TallyProofs
import StellarSave.BackingProofs
import StellarSave.ExecutorProofs

/-! # Filing — what reaches the contribution books, and how

    The books of a cycle are its contribution records and the two counters
    beside them.  Of all the calls only FOUR touch any books, and each does it
    the same way: contributions of the group's own amount, filed one at a time
    into free slots (`Filed`).  A payout writes the books only in its penalty
    pass, which no stored roster lets through.

    Everything said about the books is an induction along `Filed`. -/

namespace SaveFiling

open HostProg Footprint TokenLedger SaveData SaveContribution SavePayout SaveMembership SaveCall
open SaveBacking Tally Trace

/-! ## What a call files -/

/-- The entries that make up the books. -/
def bookKinds : List Kind := [.contrib, .cycTotal, .cycCount]

/-- No books of any group change. -/
def SameBooks (s t : State) : Prop :=
  ∀ k : Key, k.kind ∈ bookKinds → t.persistent k = s.persistent k

/-- From `s`, contributions of `amount` each were filed into free slots of the
    group, for cycles and members that `ok` allows. -/
inductive Filed (g : Nat) (amount : Int) (ok : Nat → Address → Prop) (s : State) : State → Prop
  | idle {t : State} (h : SameBooks s t) : Filed g amount ok s t
  | one {u t : State} {c : Nat} {a : Address} {time : Nat} (h : Filed g amount ok s u)
      (hok : ok c a) (hfree : u.persistent (.contrib g c a) = none)
      (hcan : CanRecord u g c a amount) (ht : SameBooks (recorded u g c a amount time) t) :
      Filed g amount ok s t

/-- Who may file for which cycle: no past cycle, and members only. -/
def MayFile (s : State) (g : Nat) (grp : SaveData.Group) (c : Nat) (a : Address) : Prop :=
  grp.currentCycle ≤ c ∧ (s.persistent (.mbrProf g a) ≠ none ∨ a ∈ (rosterAt s g).members)

section Filing

variable {env : Env} {s t u v : State} {g : Nat} {m : Address} {amount : Int} {x : Unit}
  {ok : Nat → Address → Prop}

/-- A call that writes no record keeps the books. -/
theorem SameBooks.refl (s : State) : SameBooks s s := by
  intro k hk
  rfl

/-- So do two of them. -/
theorem SameBooks.trans (h : SameBooks s u) (h' : SameBooks u t) : SameBooks s t := by
  intro k hk
  rw [h' k hk, h k hk]

/-- What comes after the filing may be anything that keeps the books. -/
theorem Filed.then_same (h : Filed g amount ok s u) (hu : SameBooks u t) :
    Filed g amount ok s t := by
  cases h with
  | idle hs => exact .idle (hs.trans hu)
  | one h hok hfree hcan ht => exact .one h hok hfree hcan (ht.trans hu)

/-- A contribution files one record of the group's amount, in the current cycle. -/
theorem contribute_filed (h : contribute g m amount env s = .ok x t) :
    ∃ grp, groupAt s g = some grp ∧ grp.status = .active ∧
      Filed g grp.contributionAmount (MayFile s g grp) s t := by
  obtain ⟨grp, config, l, hc, rfl⟩ := contribute_ok h
  obtain rfl := hc.amount_eq
  refine ⟨grp, hc.group, hc.active, ?_⟩
  -- the guard is taken and given back around the record, outside the books
  have hstart : Filed g grp.contributionAmount (MayFile s g grp) s
      (s.tempSet .guard (Codec.encode (U64.mk 1))) := .idle (SameBooks.refl s)
  exact .one hstart ⟨Nat.le_refl _, Or.inl hc.profile⟩ hc.free hc.can (SameBooks.refl _)

/-- So does one with a proof. -/
theorem contributeWithProof_filed (h : contributeWithProof g m amount env s = .ok x t) :
    ∃ grp, groupAt s g = some grp ∧ grp.status = .active ∧
      Filed g grp.contributionAmount (MayFile s g grp) s t := by
  obtain ⟨⟨-, ⟨grp, hgrp, hact, rfl, -, hfree, hcan⟩, hmem⟩, grp', hgrp', rfl⟩ :=
    contributeWithProof_ok.mp h
  rw [hgrp] at hgrp'
  obtain rfl := Option.some.inj hgrp'
  refine ⟨grp, hgrp, hact, ?_⟩
  exact .one (.idle (SameBooks.refl s)) ⟨Nat.le_refl _, Or.inl hmem⟩ hfree hcan (SameBooks.refl _)

/-- The loop of a batch, by induction along its cycles. -/
theorem recordBatch_filed {time : Nat} {cycles : List Nat}
    (hrun : forEach (fun cycle => do
      let _ ← recordContributionUnchecked g cycle m amount time
      pure ()) cycles env v = .ok x t)
    (h : Filed g amount ok s v) (hnodup : cycles.Nodup)
    (hopen : ∀ c ∈ cycles, ok c m ∧ v.persistent (.contrib g c m) = none) :
    Filed g amount ok s t := by
  induction cycles generalizing v with
  | nil =>
      rw [forEach_nil, pure_ok] at hrun
      exact hrun.2 ▸ h
  | cons c cycles ih =>
      rw [forEach_cons, bind_bind_ok, recordContributionUnchecked_bind_ok, pure_bind_ok] at hrun
      obtain ⟨hcan, hrest⟩ := hrun
      obtain ⟨hc, hnodup'⟩ := List.nodup_cons.mp hnodup
      obtain ⟨hok, hfree⟩ := hopen c List.mem_cons_self
      refine ih hrest (.one h hok hfree hcan (SameBooks.refl _)) hnodup' ?_
      -- the slots still to come are not the one just filled
      intro c' hc'
      obtain ⟨hok', hfree'⟩ := hopen c' (List.mem_cons_of_mem _ hc')
      have hne : c' ≠ c := fun he => hc (he ▸ hc')
      exact ⟨hok', by simpa [recorded, hne] using hfree'⟩

/-- A batch files one for each of its cycles. -/
theorem contributeBatch_filed {cycles : List Nat}
    (h : contributeBatch g m cycles env s = .ok x t) :
    ∃ grp, groupAt s g = some grp ∧ grp.status = .active ∧
      Filed g grp.contributionAmount (MayFile s g grp) s t := by
  obtain ⟨grp, config, w, l, hbatch, rfl⟩ := contributeBatch_ok h
  refine ⟨grp, hbatch.group, hbatch.active, ?_⟩
  have hfiled : Filed g grp.contributionAmount (MayFile s g grp) s w := by
    refine recordBatch_filed hbatch.recorded (.idle (SameBooks.refl s)) hbatch.distinct ?_
    intro c hc
    obtain ⟨hle, hfree⟩ := hbatch.upcoming c hc
    exact ⟨⟨hle, Or.inl hbatch.profile⟩, hfree⟩
  exact hfiled.then_same (SameBooks.refl _)

/-- One member of the automatic sweep. -/
theorem autoContributeMember_filed {tok : Address} {cycle time executed executed' : Nat}
    (hrun : autoContributeMember g cycle tok amount time executed m env v = .ok executed' t)
    (h : Filed g amount ok s v) (hok : ok cycle m) : Filed g amount ok s t := by
  rcases autoContributeMember_ok hrun with ⟨-, rfl⟩ | ⟨l, hfree, hcan, -, -, rfl⟩
  · exact h
  · exact .one h hok hfree hcan (SameBooks.refl _)

/-- The collection files one for each member it charges. -/
theorem executeAutoContributions_filed {n : Nat}
    (h : executeAutoContributions g env s = .ok n t) :
    ∃ grp, groupAt s g = some grp ∧ grp.status = .active ∧
      Filed g grp.contributionAmount (MayFile s g grp) s t := by
  obtain ⟨grp, config, roster, hgrp, hact, -, hroster, hrun⟩ := executeAutoContributions_ok h
  have hmem : ∀ a ∈ roster.members, MayFile s g grp grp.currentCycle a := by
    intro a ha
    exact ⟨Nat.le_refl _, Or.inr (rosterAt_eq hroster ▸ ha)⟩
  refine ⟨grp, hgrp, hact, ?_⟩
  exact foldEach_invariant (I := fun _ v => Filed g grp.contributionAmount (MayFile s g grp) s v)
    (fun a ha _ v _ w hv hstep => autoContributeMember_filed hstep hv (hmem a ha))
    (.idle (SameBooks.refl s)) hrun

/-- **THE FOUR**: a contribution call that ends well files the group's own
    amount, for its members, into no past cycle. -/
theorem contribution_filed {c : Call} (hc : contributesTo c = some g)
    (h : c.body env s = .ok () t) :
    ∃ grp, groupAt s g = some grp ∧ grp.status = .active ∧
      Filed g grp.contributionAmount (MayFile s g grp) s t := by
  cases c with
  | contribute g' a n =>
      obtain rfl := Option.some.inj hc
      exact contribute_filed h
  | contributeBatch g' a cycles =>
      obtain rfl := Option.some.inj hc
      exact contributeBatch_filed h
  | executeAutoContributions g' =>
      obtain rfl := Option.some.inj hc
      obtain ⟨n, hn⟩ := quietly_ok.mp h
      exact executeAutoContributions_filed hn
  | contributeWithProof g' a n =>
      obtain rfl := Option.some.inj hc
      exact contributeWithProof_filed h
  | _ => cases hc

/-- A payout leaves the books alone, however it ends. -/
theorem executePayout_sameBooks (hmap : TypedAt MemberMap s.persistent (.grpMbrs g))
    (h : EndsIn (executePayout g) env s v) : SameBooks s v := by
  have hagree : Agree (scope (payoutPlaces g) True True) s v := by
    rcases h with ⟨x, h⟩ | ⟨e, h⟩
    · exact Within.agree_ok h
    · exact Within.agree_err h
  intro k hk
  cases k with
  | cycTotal j c => exact executePayout_total hmap h j c
  | cycCount j c => exact hagree.persistent _ (by simp)
  | contrib j c a => exact hagree.persistent _ (by simp)
  | _ => exact absurd hk (by simp [bookKinds])

/-- **ALL THE OTHERS** leave all books alone. -/
theorem call_sameBooks {c : Call} (hmap : ∀ g, TypedAt MemberMap s.persistent (.grpMbrs g))
    (hc : contributesTo c = none) (h : c.body env s = .ok () t) : SameBooks s t := by
  have hagree := Within.agree_ok (w := c.footprint) h
  cases c with
  | contribute g a n => cases hc
  | contributeBatch g a cycles => cases hc
  | executeAutoContributions g => cases hc
  | contributeWithProof g a n => cases hc
  | executePayout g => exact executePayout_sameBooks (hmap g) (Or.inl ⟨(), h⟩)
  | tick g =>
      obtain ⟨grp, v, -, -, -, hpay, rfl⟩ := tick_ok h
      have hv : SameBooks s v := by
        rcases hpay with ⟨-, rfl⟩ | ⟨-, hends⟩
        · exact SameBooks.refl s
        · exact executePayout_sameBooks (hmap g) hends
      -- what `tick` saves over the payout is the record of the group
      refine hv.trans ?_
      intro k hk
      exact persistent_set_of_mem hk (by simp [bookKinds])
  | _ =>
      intro k hk
      exact hagree.persistent k
        (Place.not_covered (g := k.group) (Place.spares_of_kinds rfl) k rfl hk)

end Filing

/-! ## The books balance -/

/-- What each member filed for a cycle. -/
def filedAmount (s : State) (g c : Nat) (a : Address) : Option Int :=
  (contribAt s g c a).map ContributionRecord.amount

/-- The two counters of a cycle say what its records add up to and how many
    there are. -/
structure Balanced (s : State) (g c : Nat) : Prop where
  typed : ∀ a, TypedAt ContributionRecord s.persistent (.contrib g c a)
  total_typed : TypedAt I128 s.persistent (.cycTotal g c)
  count_typed : TypedAt U32 s.persistent (.cycCount g c)
  tallied : Tallied (filedAmount s g c) (cycTotalAt s g c) (cycCountAt s g c)

section Books

variable {s t : State} {g c g' c' : Nat} {a : Address} {amount : Int} {time : Nat}
  {ok : Nat → Address → Prop}

/-- A record adds its amount to the total of its own cycle. -/
theorem cycTotalAt_recorded :
    cycTotalAt (recorded s g c a amount time) g' c' =
      if g' = g ∧ c' = c then cycTotalAt s g c + amount else cycTotalAt s g' c' := by
  by_cases h : g' = g ∧ c' = c
  · obtain ⟨rfl, rfl⟩ := h
    simp [recorded, cycTotalAt]
  · simp [recorded, cycTotalAt, h]

/-- And one to the count of it. -/
theorem cycCountAt_recorded :
    cycCountAt (recorded s g c a amount time) g' c' =
      if g' = g ∧ c' = c then cycCountAt s g c + 1 else cycCountAt s g' c' := by
  by_cases h : g' = g ∧ c' = c
  · obtain ⟨rfl, rfl⟩ := h
    simp [recorded, cycCountAt]
  · simp [recorded, cycCountAt, h]

/-- Same books, same amounts. -/
theorem SameBooks.filedAmount (h : SameBooks s t) (a : Address) :
    filedAmount t g c a = filedAmount s g c a := by
  show (contribAt t g c a).map _ = (contribAt s g c a).map _
  rw [contribAt, readAt_congr (h (.contrib g c a) (by simp [bookKinds]))]

/-- Books that were not touched. -/
theorem Balanced.congr (hb : Balanced s g c) (h : SameBooks s t) : Balanced t g c := by
  have htotal := h (.cycTotal g c) (by simp [bookKinds])
  have hcount := h (.cycCount g c) (by simp [bookKinds])
  refine ⟨?_, hb.total_typed.congr htotal, hb.count_typed.congr hcount, ?_⟩
  · intro a
    exact (hb.typed a).congr (h (.contrib g c a) (by simp [bookKinds]))
  · rw [cycTotalAt, readAt_congr htotal, cycCountAt, readAt_congr hcount]
    exact hb.tallied.congr fun a => h.filedAmount a

/-- Where the counters balance, no amount means no record. -/
theorem filedAmount_eq_none (hb : Balanced s g c) :
    filedAmount s g c a = none ↔ s.persistent (.contrib g c a) = none := by
  show (contribAt s g c a).map _ = none ↔ _
  rw [Option.map_eq_none_iff]
  exact readAt_eq_none (hb.typed a)

/-- **ONE CONTRIBUTION** filed into a free slot keeps all books balanced. -/
theorem Balanced.record (hb : Balanced s g' c') (hfree : s.persistent (.contrib g c a) = none) :
    Balanced (recorded s g c a amount time) g' c' := by
  by_cases h : g' = g ∧ c' = c
  · -- the books it was filed in: one record more, and both counters say so
    obtain ⟨rfl, rfl⟩ := h
    refine ⟨?_, ?_, ?_, ?_⟩
    · intro b
      by_cases hba : b = a
      · refine typedAt_of_readAt (a := ContributionRecord.mk a g' c' amount time) ?_
        exact (contribAt_recorded g' c' b).trans (if_pos ⟨rfl, rfl, hba⟩)
      · exact (hb.typed b).congr (by simp [recorded, hba])
    · exact typedAt_of_readAt (a := I128.mk (cycTotalAt s g' c' + amount)) (by simp [recorded])
    · exact typedAt_of_readAt (a := U32.mk (cycCountAt s g' c' + 1)) (by simp [recorded])
    · rw [cycTotalAt_recorded, if_pos ⟨rfl, rfl⟩, cycCountAt_recorded, if_pos ⟨rfl, rfl⟩]
      refine hb.tallied.file ((filedAmount_eq_none hb).mpr hfree) ?_
      intro b
      show (contribAt (recorded s g' c' a amount time) g' c' b).map _ = _
      rw [contribAt_recorded]
      by_cases hba : b = a
      · rw [if_pos ⟨rfl, rfl, hba⟩, if_pos hba]
        rfl
      · rw [if_neg fun hc => hba hc.2.2, if_neg hba]
        rfl
  · -- other books are not touched
    refine ⟨?_, ?_, ?_, ?_⟩
    · intro b
      have hne : ¬ (g' = g ∧ c' = c ∧ b = a) := fun he => h ⟨he.1, he.2.1⟩
      exact (hb.typed b).congr (by simp [recorded, hne])
    · exact hb.total_typed.congr (by simp [recorded, h])
    · exact hb.count_typed.congr (by simp [recorded, h])
    · rw [cycTotalAt_recorded, if_neg h, cycCountAt_recorded, if_neg h]
      refine hb.tallied.congr ?_
      intro b
      show (contribAt (recorded s g c a amount time) g' c' b).map _ = _
      rw [contribAt_recorded, if_neg fun he => h ⟨he.1, he.2.1⟩]
      rfl

/-- However many. -/
theorem Filed.balanced (h : Filed g amount ok s t) (hb : Balanced s g' c') :
    Balanced t g' c' := by
  induction h with
  | idle hst => exact hb.congr hst
  | one _ _ hfree _ ht ih => exact (ih.record hfree).congr ht

/-- A record that is there is never written again. -/
theorem Filed.kept (h : Filed g amount ok s t) (hrec : s.persistent (.contrib g' c' a) ≠ none) :
    t.persistent (.contrib g' c' a) = s.persistent (.contrib g' c' a) := by
  induction h with
  | idle hst => exact hst _ (by simp [bookKinds])
  | @one u t c b time _ _ hfree _ ht ih =>
      rw [ht _ (by simp [bookKinds]), ← ih]
      -- a slot that was filled at the start was not free when this one was filed
      have hne : Key.contrib g' c' a ≠ .contrib g c b := by
        intro he
        rw [he] at ih hrec
        rw [hfree] at ih
        exact hrec ih.symm
      simp only [recorded, HostState.set_persistent, if_neg hne, reduceCtorEq, if_false]

/-- Whoever has a record after contributions were filed had one before or was
    allowed to file. -/
theorem Filed.filers (h : Filed g amount ok s t) {cycle : Nat} {a : Address}
    (ha : t.persistent (.contrib g cycle a) ≠ none) :
    s.persistent (.contrib g cycle a) ≠ none ∨ ok cycle a := by
  induction h with
  | idle hst =>
      rw [hst _ (by simp [bookKinds])] at ha
      exact Or.inl ha
  | @one u t c b time _ hok _ _ ht ih =>
      by_cases hnew : cycle = c ∧ a = b
      · exact Or.inr (hnew.1 ▸ hnew.2 ▸ hok)
      · refine ih fun hu => ha ?_
        rw [ht _ (by simp [bookKinds])]
        simpa [recorded, hnew] using hu

/-- A record that is there afterwards was there before, or was filed for the
    amount. -/
theorem Filed.amounts (h : Filed g amount ok s t) {cycle : Nat} {record : ContributionRecord}
    (hrec : contribAt t g cycle a = some record) :
    contribAt s g cycle a = some record ∨ (record.amount = amount ∧ ok cycle a) := by
  induction h with
  | idle hst =>
      rw [contribAt, readAt_congr (hst _ (by simp [bookKinds]))] at hrec
      exact Or.inl hrec
  | @one u t c b time _ hok _ _ ht ih =>
      rw [contribAt, readAt_congr (ht _ (by simp [bookKinds])), ← contribAt,
        contribAt_recorded] at hrec
      by_cases hnew : g = g ∧ cycle = c ∧ a = b
      · rw [if_pos hnew] at hrec
        obtain rfl := Option.some.inj hrec
        exact Or.inr ⟨rfl, hnew.2.1 ▸ hnew.2.2 ▸ hok⟩
      · rw [if_neg hnew] at hrec
        exact ih hrec

/-- Filing for another group. -/
theorem Filed.elsewhere (h : Filed g amount ok s t) (hg : g' ≠ g) (cycle : Nat)
    (a : Address) : t.persistent (.contrib g' cycle a) = s.persistent (.contrib g' cycle a) := by
  induction h with
  | idle hst => exact hst _ (by simp [bookKinds])
  | one _ _ _ _ ht ih =>
      rw [ht _ (by simp [bookKinds]), ← ih]
      simp [recorded, hg]

end Books

/-! ## Every call keeps the books -/

/-- Rosters are stored as maps and all books balance. -/
structure InOrder (s : State) : Prop where
  rosters : ∀ g, TypedAt MemberMap s.persistent (.grpMbrs g)
  balanced : ∀ g c, Balanced s g c

/-- A contribution to a cycle its member has contributed to, or a batch that
    lists a cycle twice. -/
def Repeats (s : State) : Call → Prop
  | .contribute g m _ | .contributeWithProof g m _ => ∃ grp, groupAt s g = some grp ∧
      s.persistent (.contrib g grp.currentCycle m) ≠ none
  | .contributeBatch g m cycles =>
      (∃ c ∈ cycles, s.persistent (.contrib g c m) ≠ none) ∨ ¬ cycles.Nodup
  | _ => False

section Calls

variable {env : Env} {s t : State} {c : Call}

/-- Whoever writes a roster writes a map. -/
theorem call_rosters (hmap : ∀ g, TypedAt MemberMap s.persistent (.grpMbrs g))
    (h : c.body env s = .ok () t) (g : Nat) : TypedAt MemberMap t.persistent (.grpMbrs g) := by
  have hagree := Within.agree_ok (w := c.footprint) h
  cases c with
  | joinGroup g' m referrer =>
      by_cases hg : g = g'
      · obtain ⟨grp, -, rfl⟩ := joinGroup_ok h
        subst hg
        exact typedAt_of_readAt (a := (rosterAt s g).insert grp.memberCount m) (by simp [joined])
      · exact (hmap g).congr (hagree.persistent _ (by simp [hg]))
  | removeMember g' m =>
      by_cases hg : g = g'
      · obtain ⟨grp, profile, -, rfl⟩ := removeMember_ok h
        subst hg
        exact typedAt_of_readAt (a := (rosterAt s g).erase profile.payoutPosition)
          (by simp [removed])
      · exact (hmap g).congr (hagree.persistent _ (by simp [hg]))
  | mergeGroups g₁ g₂ =>
      obtain ⟨n, hn⟩ := quietly_ok.mp h
      by_cases hg : g = lastId s + 1
      · exact hg ▸ typedAt_of_readAt (mergeGroups_roster hn)
      · exact (hmap g).congr (mergeGroups_frame hn (.grpMbrs g) hg (by simp))
  | _ => exact (hmap g).congr (hagree.persistent _ (Place.other_kind rfl))

/-- **ONE CALL** keeps the books in order, and no record is written twice. -/
theorem inOrder_step (hs : InOrder s) (h : c.body env s = .ok () t) :
    InOrder t ∧ ∀ g cycle a, s.persistent (.contrib g cycle a) ≠ none →
      t.persistent (.contrib g cycle a) = s.persistent (.contrib g cycle a) := by
  have hrosters := call_rosters hs.rosters h
  cases hc : contributesTo c with
  | none =>
      have hsame := call_sameBooks hs.rosters hc h
      exact ⟨⟨hrosters, fun g cycle => (hs.balanced g cycle).congr hsame⟩,
        fun g cycle a _ => hsame _ (by simp [bookKinds])⟩
  | some g =>
      obtain ⟨grp, -, -, hfiled⟩ := contribution_filed hc h
      exact ⟨⟨hrosters, fun g' cycle => hfiled.balanced (hs.balanced g' cycle)⟩,
        fun g' cycle a ha => hfiled.kept ha⟩

/-- Only persistent entries are looked at. -/
theorem InOrder.congr (hs : InOrder s) (h : t.persistent = s.persistent) : InOrder t where
  rosters g := h ▸ hs.rosters g
  balanced g c := (hs.balanced g c).congr fun k _ => by rw [h]

/-- Every step keeps the books in order. -/
theorem inOrder_apply (x : Step) (s : State) (hs : InOrder s) : InOrder (apply x s) :=
  apply_invariant (C := fun _ _ => True) (fun _ _ _ _ _ hs ht => (inOrder_step hs ht).1)
    (fun _ hs => hs.congr rfl) (fun _ _ hs => hs.congr rfl) x s trivial hs

/-- A second contribution to the same cycle does not go through. -/
theorem repeats_refused (hc : Repeats s c) : ¬ Succeeds c.body env s := by
  rintro ⟨⟨⟩, t, h⟩
  cases c with
  | contribute g m n =>
      obtain ⟨grp, hgrp, hpaid⟩ := hc
      obtain ⟨grp', config, l, hdone, -⟩ := contribute_ok h
      obtain rfl := Option.some.inj (hgrp.symm.trans hdone.group)
      exact hpaid hdone.free
  | contributeWithProof g m n =>
      obtain ⟨grp, hgrp, hpaid⟩ := hc
      obtain ⟨⟨-, ⟨grp', hgrp', -, -, -, hfree, -⟩, -⟩, -⟩ := contributeWithProof_ok.mp h
      obtain rfl := Option.some.inj (hgrp.symm.trans hgrp')
      exact hpaid hfree
  | contributeBatch g m cycles =>
      obtain ⟨grp, config, w, l, hbatch, -⟩ := contributeBatch_ok h
      rcases hc with ⟨cycle, hmem, hpaid⟩ | hdouble
      · exact hpaid (hbatch.upcoming cycle hmem).2
      · exact hdouble hbatch.distinct
  | _ => exact hc.elim

end Calls

/-- Empty books are in order. -/
theorem inOrder_of_empty {s : State}
    (hrosters : ∀ g, TypedAt MemberMap s.persistent (.grpMbrs g))
    (hrecords : ∀ g c a, s.persistent (.contrib g c a) = none)
    (htotals : ∀ g c, s.persistent (.cycTotal g c) = none)
    (hcounts : ∀ g c, s.persistent (.cycCount g c) = none) : InOrder s where
  rosters := hrosters
  balanced g c := by
    refine ⟨fun a => typedAt_of_none (hrecords g c a), typedAt_of_none (htotals g c),
      typedAt_of_none (hcounts g c), ?_⟩
    have hnone : ∀ a, filedAmount s g c a = none := by
      intro a
      rw [filedAmount, contribAt, readAt, hrecords]
      rfl
    rw [cycTotalAt, readAt, htotals, cycCountAt, readAt, hcounts]
    exact tallied_none hnone

/-- A contract that was just deployed has none. -/
theorem inOrder_deployed (l : Ledger) : InOrder (deployed l) :=
  inOrder_of_empty (fun _ => typedAt_of_none rfl) (fun _ _ _ => rfl) (fun _ _ => rfl) fun _ _ => rfl

/-- **THE BOOKS ARE IN ORDER** along every run from deployment on. -/
theorem inOrder_run (l : Ledger) (steps : List Step) : InOrder (run steps (deployed l)) :=
  exec_invariant_always inOrder_apply (inOrder_deployed l) steps

/-- **THE COUNTERS CAN BE TRUSTED**: every operation of the contract keeps every
    cycle's total and count equal to the sum and the number of its records, no
    record is ever written twice, and a second contribution is refused without
    a trace. -/
theorem counters_match_records (env : Env) (s : State) (c : Call) (hs : InOrder s) :
    InOrder (commit c.body env s) ∧
      (∀ g cycle a, s.persistent (.contrib g cycle a) ≠ none →
        (commit c.body env s).persistent (.contrib g cycle a)
          = s.persistent (.contrib g cycle a)) ∧
      (Repeats s c → ¬ Succeeds c.body env s ∧ commit c.body env s = s) := by
  have hrefused : Repeats s c → ¬ Succeeds c.body env s ∧ commit c.body env s = s := by
    intro hc
    have hfail : ¬ Succeeds c.body env s := repeats_refused hc
    exact ⟨hfail, commit_of_not_succeeds hfail⟩
  rcases commit_eq_or c env s with ⟨t, ht, he⟩ | ⟨-, he⟩
  · obtain ⟨horder, hkept⟩ := inOrder_step hs ht
    exact ⟨he ▸ horder, he ▸ hkept, hrefused⟩
  · refine ⟨?_, ?_, hrefused⟩
    · rw [he]
      exact hs
    · intro g cycle a _
      rw [he]

/-- A group of one before its first contribution. -/
theorem proofState_inOrder : InOrder proofState :=
  inOrder_of_empty (fun _ => typedAt_of_none rfl) (fun _ _ _ => rfl) (fun _ _ => rfl) fun _ _ => rfl

/-- The theorem at its first contribution. -/
theorem counters_match_records_instance :
    cycTotalAt (commit (Call.contributeWithProof 1 ⟨1⟩ 100).body signedEnv proofState) 1 0 = 100 ∧
      InOrder (commit (Call.contributeWithProof 1 ⟨1⟩ 100).body signedEnv proofState) :=
  ⟨rfl, (counters_match_records signedEnv proofState (.contributeWithProof 1 ⟨1⟩ 100)
    proofState_inOrder).1⟩

end SaveFiling
