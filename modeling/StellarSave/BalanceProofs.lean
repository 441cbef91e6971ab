import StellarSave.RewardProofs
import StellarSave.ViewProofs
import StellarSave.DissolutionProofs
import StellarSave.AllowlistProofs

/-! # The balance of a group — two counters against the money

    `get_group_balance` subtracts one counter from another: what was recorded
    as paid in, and what was recorded as paid out.  Contributions feed the
    first, payouts the second, and an emergency withdrawal lowers the first.
    REFUNDS touch neither, so the figure goes on counting money that has left.

    What the figure means while no refund is made: the sum of the contributions
    that are still held.  `Held` names them. -/

namespace SaveBalance

open HostProg Footprint TokenLedger SaveData SaveContribution SavePayout SaveRefund SaveMembership
open SaveLifecycle SaveAdmin SaveCall SaveStatus SaveRecord SaveEscrow SaveBacking SaveRoster
open SaveFiling SaveReward SaveMerge SaveAllowlist SaveDissolution SaveView Tally Trace
open SaveRotation (fundedOpen fundedOpen_registry)

/-! ## The contributions still held -/

/-- What `get_group_balance` works out. -/
def balanceAt (s : State) (g : Nat) : Int := grpBalAt s g - grpPaidAt s g

/-- The group has a token, or is not there yet; a merged group has none. -/
def Tracked (s : State) (g : Nat) : Prop := lastId s < g ∨ s.persistent (.grpTok g) ≠ none

/-- **HELD**: `O` lists the contributions of the group that have not left again,
    those to cycles to come and those of members to cycles without a payout
    among them, and the counters differ by their sum. -/
structure Held (s : State) (g : Nat) (O : Finset (Nat × Address)) : Prop where
  typed : TypedAt I128 s.persistent (.grpBal g) ∧ TypedAt I128 s.persistent (.grpPaid g)
  fits : grpBalAt s g < i128Bound ∧ 0 ≤ grpPaidAt s g
  records : ∀ p ∈ O, s.persistent (.contrib g p.1 p.2) ≠ none
  ahead : ∀ n, cycleAt s g = some n → ∀ c a, n ≤ c → s.persistent (.contrib g c a) ≠ none →
    (c, a) ∈ O
  unpaid : ∀ c a, s.persistent (.payRecip g c) = none → s.persistent (.mbrProf g a) ≠ none →
    s.persistent (.contrib g c a) ≠ none → (c, a) ∈ O
  balance : balanceAt s g = ∑ p ∈ O, paidIn s g p.1 p.2

/-- The counters of the group, where they are stored, read the same. -/
structure SameCounters (s t : State) (g : Nat) : Prop where
  typed : TypedAt I128 s.persistent (.grpBal g) ∧ TypedAt I128 s.persistent (.grpPaid g) →
    TypedAt I128 t.persistent (.grpBal g) ∧ TypedAt I128 t.persistent (.grpPaid g)
  balance : grpBalAt t g = grpBalAt s g
  paid : grpPaidAt t g = grpPaidAt s g

section Held

variable {s t : State} {g : Nat} {O : Finset (Nat × Address)}

/-- A call that writes neither counter leaves both readings as they were. -/
theorem SameCounters.of_same (hbal : t.persistent (.grpBal g) = s.persistent (.grpBal g))
    (hpaid : t.persistent (.grpPaid g) = s.persistent (.grpPaid g)) : SameCounters s t g where
  typed h := ⟨h.1.congr hbal, h.2.congr hpaid⟩
  balance := by rw [grpBalAt, readAt_congr hbal]
  paid := by rw [grpPaidAt, readAt_congr hpaid]

/-- What two stretches leave alone, both together do. -/
theorem SameCounters.trans {u : State} (h : SameCounters s u g) (h' : SameCounters u t g) :
    SameCounters s t g where
  typed hs := h'.typed (h.typed hs)
  balance := h'.balance.trans h.balance
  paid := h'.paid.trans h.paid

/-- The balance is the difference of the two counters, so it stays as well. -/
theorem SameCounters.balanceAt_eq (h : SameCounters s t g) : balanceAt t g = balanceAt s g := by
  rw [balanceAt, balanceAt, h.balance, h.paid]

/-- What can be read is there. -/
theorem stored_of_read {α : Type} [Codec Val α] {k : Key} {a : α}
    (h : readAt α s.persistent k = some a) : s.persistent k ≠ none := by
  rw [(readAt_eq_some _ _ _).mp h]
  exact Option.some_ne_none _

/-- The amount of a record depends on the record alone. -/
theorem paidIn_congr {c : Nat} {a : Address}
    (h : t.persistent (.contrib g c a) = s.persistent (.contrib g c a)) :
    paidIn t g c a = paidIn s g c a := by
  rw [paidIn, paidIn, contribAt, readAt_congr h]

/-- The sum of what is held stays as long as the records of the group that exist do. -/
theorem Held.amounts (h : Held s g O)
    (hkept : ∀ c a, s.persistent (.contrib g c a) ≠ none →
      t.persistent (.contrib g c a) = s.persistent (.contrib g c a)) :
    ∑ p ∈ O, paidIn t g p.1 p.2 = ∑ p ∈ O, paidIn s g p.1 p.2 :=
  Finset.sum_congr rfl fun p hp => paidIn_congr (hkept p.1 p.2 (h.records p hp))

/-- **IDLE**: no money, no new record; the cycle may move on, payouts may be
    noted, members may leave, and come while there are no records. -/
theorem Held.idle (h : Held s g O) (hsame : SameCounters s t g)
    (hrecords : ∀ c a, t.persistent (.contrib g c a) = s.persistent (.contrib g c a))
    (hrecip : ∀ c, t.persistent (.payRecip g c) = none → s.persistent (.payRecip g c) = none)
    (hmember : ∀ a, t.persistent (.mbrProf g a) ≠ none →
      s.persistent (.mbrProf g a) ≠ none ∨ Bare g s)
    (hcycle : ∀ n, cycleAt t g = some n → (∃ m, cycleAt s g = some m ∧ m ≤ n) ∨ Bare g s) :
    Held t g O where
  typed := hsame.typed h.typed
  fits := by
    rw [hsame.balance, hsame.paid]
    exact h.fits
  records p hp := by
    rw [hrecords]
    exact h.records p hp
  ahead n hn c a hle hrecord := by
    rw [hrecords] at hrecord
    rcases hcycle n hn with ⟨m, hm, hmn⟩ | hbare
    · exact h.ahead m hm c a (hmn.trans hle) hrecord
    · exact absurd (hbare c a) hrecord
  unpaid c a hpaid hprofile hrecord := by
    rw [hrecords] at hrecord
    rcases hmember a hprofile with hmem | hbare
    · exact h.unpaid c a (hrecip c hpaid) hmem hrecord
    · exact absurd (hbare c a) hrecord
  -- the sum is over the same records
  balance := by
    rw [hsame.balanceAt_eq, h.balance]
    exact (h.amounts fun c a _ => hrecords c a).symm

/-- The figure is a sum of contributions. -/
theorem Held.nonneg (h : Held s g O) (hpos : Positive s) : 0 ≤ balanceAt s g := by
  rw [h.balance]
  refine Finset.sum_nonneg ?_
  intro p _
  cases hrecord : contribAt s g p.1 p.2 with
  | none => rw [paidIn_of_none hrecord]
  | some record =>
      rw [paidIn_of_record hrecord]
      exact (hpos g p.1 p.2 record hrecord).le

/-- **THE ANSWER** of `get_group_balance`. -/
theorem Held.answer (h : Held s g O) (hpos : Positive s) (hgrp : s.persistent (.grp g) ≠ none)
    (env : Env) : getGroupBalance g env s = .ok (balanceAt s g) s := by
  have hnonneg := h.nonneg hpos
  have hbound : (0 : Int) ≤ i128Bound := by decide
  have hrange : -i128Bound ≤ balanceAt s g ∧ balanceAt s g < i128Bound := by
    have hfits := h.fits
    rw [balanceAt] at hnonneg ⊢
    omega
  simp only [getGroupBalance, has_bind_ok, failIf_bind_ok, getD_bind_ok, okOr_ok,
    checkedI128_eq_some]
  refine ⟨?_, h.typed.1, h.typed.2, ⟨hrange, rfl⟩, trivial⟩
  simpa using hgrp

end Held

/-! ## Money in -/

/-- The contract's holding of `tok` grew by `n`, and of nothing else. -/
def Flow (s t : State) (tok : Address) (n : Int) : Prop :=
  ∀ tok', escrow t tok' = escrow s tok' + if tok' = tok then n else 0

/-- The new records add up to `n`, and the first counter of the group says so. -/
structure Booked (s t : State) (g : Nat) (n : Int) : Prop where
  wrote : Wrote s t n
  counter : grpBalAt t g = grpBalAt s g + n
  typed : TypedAt I128 s.persistent (.grpBal g) → TypedAt I128 t.persistent (.grpBal g)
  fits : grpBalAt s g < i128Bound → grpBalAt t g < i128Bound

/-- No token moved, or `n` of the group's own came in. -/
def MovesBy (s t : State) (g : Nat) (n : Int) : Prop :=
  (n = 0 ∧ t.ledger = s.ledger) ∨
    ∃ config, tokenAt s g = some config ∧ Flow s t config.tokenAddress n

section MoneyIn

variable {env : Env} {s s₀ t : State} {g : Nat} {m tok : Address} {n amount : Int} {u : Unit}
  {c : Call}

/-- A call that leaves the token alone moves no money. -/
theorem Flow.of_ledger (h : t.ledger = s.ledger) : Flow s t tok 0 := by
  intro tok'
  rw [escrow, escrow, h]
  by_cases htok : tok' = tok
  · rw [if_pos htok, Int.add_zero]
  · rw [if_neg htok, Int.add_zero]

/-- Flows of one token add up. -/
theorem Flow.trans {k : Int} (h : Flow s₀ s tok n) (h' : Flow s t tok k) :
    Flow s₀ t tok (n + k) := by
  intro tok'
  rw [h' tok', h tok']
  by_cases htok : tok' = tok
  · simp only [if_pos htok]
    omega
  · simp only [if_neg htok]
    omega

/-- A pull out of an allowance. -/
theorem flow_of_pull (hn : 0 < n)
    (h : Book.transferFrom s.ledger tok m contractAddress n = some t.ledger) : Flow s t tok n := by
  intro tok'
  by_cases htok : tok' = tok
  · rw [if_pos htok, htok]
    exact Book.holding_pull h hn
  · rw [if_neg htok, Int.add_zero, escrow, Book.holding_transferFrom h, if_neg htok]
    rfl

/-- A transfer to somebody else. -/
theorem flow_of_transfer (hm : m ≠ contractAddress)
    (h : Book.transfer s.ledger tok contractAddress m n = some t.ledger) : Flow s t tok (-n) := by
  intro tok'
  by_cases htok : tok' = tok
  · rw [if_pos htok, htok]
    exact Book.holding_src_of_ne h hm.symm
  · rw [if_neg htok, Int.add_zero, escrow, Book.holding_transfer h, if_neg htok]
    rfl

/-- On the group's own token. -/
theorem Flow.groupEscrow_eq {config : TokenConfig} (h : Flow s t config.tokenAddress n)
    (hs : tokenAt s g = some config) (ht : tokenAt t g = some config) :
    groupEscrow t g - groupEscrow s g = n := by
  rw [groupEscrow_of_token hs, groupEscrow_of_token ht]
  have hown := h config.tokenAddress
  rw [if_pos rfl, escrow, escrow] at hown
  omega

/-- Nothing written, nothing booked. -/
theorem Booked.refl (s : State) (g : Nat) : Booked s s g 0 where
  wrote := Wrote.refl s
  counter := (Int.add_zero _).symm
  typed h := h
  fits h := h

/-- Only the storage counts. -/
theorem Booked.congr (h : Booked s₀ s g n) (ht : t.persistent = s.persistent) :
    Booked s₀ t g n where
  wrote := h.wrote.congr ht
  counter := by
    rw [grpBalAt, ht]
    exact h.counter
  typed hs := by
    rw [ht]
    exact h.typed hs
  fits hs := by
    rw [grpBalAt, ht]
    exact h.fits hs

/-- **ONE MORE RECORD** in a free slot. -/
theorem Booked.record {cycle : Nat} (h : Booked s₀ s g n)
    (hfree : s.persistent (.contrib g cycle m) = none) (hcan : CanRecord s g cycle m amount)
    (time : Nat) : Booked s₀ (recorded s g cycle m amount time) g (n + amount) := by
  have hcounter : grpBalAt (recorded s g cycle m amount time) g = grpBalAt s g + amount := by
    simp [grpBalAt, recorded]
  refine ⟨h.wrote.record hfree amount time, ?_, ?_, ?_⟩
  · rw [hcounter, h.counter, Int.add_assoc]
  · intro _
    refine typedAt_of_readAt (a := I128.mk (grpBalAt s g + amount)) ?_
    simp [grpBalAt, recorded]
  · intro _
    rw [hcounter]
    exact hcan.balance_fits.2

/-- A contribution that goes through books what it pulls in, in the group's own token. -/
theorem contribute_booked (h : contribute g m amount env s = .ok u t) :
    ∃ config n, tokenAt s g = some config ∧ Booked s t g n ∧ Flow s t config.tokenAddress n := by
  obtain ⟨grp, config, l, hc, rfl⟩ := contribute_ok h
  have hlocked := (Booked.refl s g).congr (t := s.tempSet .guard (Codec.encode (U64.mk 1))) rfl
  have hrec := hlocked.record hc.free hc.can env.timestamp
  rw [Int.zero_add] at hrec
  exact ⟨config, amount, hc.token, hrec.congr rfl, flow_of_pull hc.can.amount_pos hc.pulled⟩

/-- The recording loop of a batch. -/
theorem recordBatch_booked {time : Nat} {cycles : List Nat}
    (h : forEach (fun cycle => do
      let _ ← recordContributionUnchecked g cycle m amount time
      pure ()) cycles env s = .ok u t)
    (hs : Booked s₀ s g n) (hnodup : cycles.Nodup)
    (hfree : ∀ c ∈ cycles, s.persistent (.contrib g c m) = none) :
    Booked s₀ t g (n + amount * cycles.length) := by
  -- a batch writes record after record, the counter once at the end
  induction cycles generalizing s n with
  | nil =>
      rw [forEach_nil, pure_ok] at h
      obtain ⟨-, rfl⟩ := h
      simpa using hs
  | cons c cycles ih =>
      rw [forEach_cons, bind_bind_ok, recordContributionUnchecked_bind_ok, pure_bind_ok] at h
      obtain ⟨hcan, hrest⟩ := h
      obtain ⟨hc, hnodup'⟩ := List.nodup_cons.mp hnodup
      have hrec := hs.record (hfree c List.mem_cons_self) hcan time
      have hfree' : ∀ c' ∈ cycles,
          (recorded s g c m amount time).persistent (.contrib g c' m) = none := by
        intro c' hc'
        have hne : c' ≠ c := fun he => hc (he ▸ hc')
        simpa [recorded, hne] using hfree c' (List.mem_cons_of_mem _ hc')
      have hend := ih hrest hrec hnodup' hfree'
      have he : n + amount + amount * cycles.length = n + amount * ((c :: cycles).length : Int) := by
        rw [List.length_cons]
        push_cast
        ring
      rwa [he] at hend

/-- So does a batch, for all its cycles together. -/
theorem contributeBatch_booked {cycles : List Nat}
    (h : contributeBatch g m cycles env s = .ok u t) :
    ∃ config n, tokenAt s g = some config ∧ Booked s t g n ∧ Flow s t config.tokenAddress n := by
  obtain ⟨grp, config, s₁, l, hbatch, rfl⟩ := contributeBatch_ok h
  have hfree : ∀ c ∈ cycles, s.persistent (.contrib g c m) = none := fun c hc => (hbatch.upcoming c hc).2
  obtain ⟨-, hledger, -, hpos⟩ := recordBatch_wrote hbatch.recorded (Wrote.refl s) hbatch.distinct hfree
  have hbooked := recordBatch_booked hbatch.recorded (Booked.refl s g) hbatch.distinct hfree
  have hlen : 0 < grp.contributionAmount * (cycles.length : Int) :=
    Int.mul_pos (hpos hbatch.nonempty) (by
      have := List.length_pos_of_ne_nil hbatch.nonempty
      omega)
  rw [Int.zero_add] at hbooked
  refine ⟨config, _, hbatch.token, hbooked.congr rfl, ?_⟩
  have hflow := (Flow.of_ledger hledger).trans (flow_of_pull (t := s₁.setLedger l) hlen hbatch.pulled)
  rwa [Int.zero_add] at hflow

/-- One member of the automatic sweep. -/
theorem autoContributeMember_booked {cycle time executed executed' : Nat}
    (h : autoContributeMember g cycle tok amount time executed m env s = .ok executed' t)
    (hs : ∃ n, Booked s₀ s g n ∧ Flow s₀ s tok n) : ∃ n, Booked s₀ t g n ∧ Flow s₀ t tok n := by
  rcases autoContributeMember_ok h with ⟨-, rfl⟩ | ⟨l, hfree, hcan, hl, -, rfl⟩
  · exact hs
  · obtain ⟨n, hbooked, hflow⟩ := hs
    exact ⟨n + amount, (hbooked.record hfree hcan time).congr rfl,
      hflow.trans (flow_of_pull hcan.amount_pos hl)⟩

/-- And the automatic collection, for all the members it charged. -/
theorem executeAutoContributions_booked {k : Nat}
    (h : executeAutoContributions g env s = .ok k t) :
    ∃ config n, tokenAt s g = some config ∧ Booked s t g n ∧ Flow s t config.tokenAddress n := by
  obtain ⟨grp, config, roster, -, -, htok, -, hrun⟩ := executeAutoContributions_ok h
  obtain ⟨n, hbooked, hflow⟩ :=
    foldEach_invariant (I := fun _ v => ∃ n, Booked s v g n ∧ Flow s v config.tokenAddress n)
      (fun a _ _ v _ v' hv hstep => autoContributeMember_booked hstep hv)
      ⟨0, Booked.refl s g, Flow.of_ledger rfl⟩ hrun
  exact ⟨config, n, htok, hbooked, hflow⟩

/-- **EVERY CONTRIBUTION THAT IS PAID FOR** is booked for what came in. -/
theorem contribution_booked (hc : contributesTo c = some g)
    (hproof : ∀ m n, c ≠ .contributeWithProof g m n) (h : c.body env s = .ok () t) :
    ∃ config n, tokenAt s g = some config ∧ Booked s t g n ∧ Flow s t config.tokenAddress n := by
  cases c with
  | contribute g' a n =>
      obtain rfl := Option.some.inj hc
      exact contribute_booked h
  | contributeBatch g' a cycles =>
      obtain rfl := Option.some.inj hc
      exact contributeBatch_booked h
  | executeAutoContributions g' =>
      obtain rfl := Option.some.inj hc
      obtain ⟨k, hk⟩ := quietly_ok.mp h
      exact executeAutoContributions_booked hk
  | contributeWithProof g' a n =>
      obtain rfl := Option.some.inj hc
      exact absurd rfl (hproof a n)
  | _ => cases hc

/-- Two readings of one record: by its key, and by group, cycle and member. -/
theorem recordAmount_eq (t : State) (k : RecordKey) :
    recordAmount t k = paidIn t k.1 k.2.1 k.2.2 := by
  rw [recordAmount, paidIn]
  cases contribAt t k.1 k.2.1 k.2.2 with
  | none => rfl
  | some record => rfl

/-- The new records of one group, where no other group has any. -/
theorem Booked.new_records (h : Booked s t g n)
    (hother : ∀ g' c a, g' ≠ g → t.persistent (.contrib g' c a) = s.persistent (.contrib g' c a)) :
    ∃ N : Finset (Nat × Address), (∀ p : Nat × Address, p ∈ N ↔ NewRecord s t (g, p)) ∧
      ∑ p ∈ N, paidIn t g p.1 p.2 = n := by
  obtain ⟨K, hK, hn⟩ := h.wrote.total
  -- the new records are of this group: other groups' records stayed
  have hgroup : ∀ k ∈ K, k.1 = g := by
    intro k hk
    obtain ⟨record, hrecord, hnew⟩ := (hK k).mp hk
    by_contra hne
    rw [contribAt, readAt_congr (hother k.1 k.2.1 k.2.2 hne)] at hrecord
    exact hnew hrecord
  refine ⟨K.image Prod.snd, ?_, ?_⟩
  · intro p
    rw [Finset.mem_image, ← hK]
    constructor
    · rintro ⟨k, hk, rfl⟩
      have he : (g, k.2) = k := by rw [← hgroup k hk]
      rwa [he]
    · intro hp
      exact ⟨(g, p), hp, rfl⟩
  · rw [← hn, Finset.sum_image]
    · refine Finset.sum_congr rfl ?_
      intro k hk
      rw [recordAmount_eq, hgroup k hk]
    · intro k hk k' hk' he
      exact Prod.ext ((hgroup k hk).trans (hgroup k' hk').symm) he

/-- **PAID IN**: new records are held. -/
theorem Held.booked {O : Finset (Nat × Address)} (h : Held s g O) (hb : Booked s t g n)
    (hother : ∀ g' c a, g' ≠ g → t.persistent (.contrib g' c a) = s.persistent (.contrib g' c a))
    (hkept : ∀ c a, s.persistent (.contrib g c a) ≠ none →
      t.persistent (.contrib g c a) = s.persistent (.contrib g c a))
    (htyped : ∀ c a, TypedAt ContributionRecord t.persistent (.contrib g c a))
    (hpaid : t.persistent (.grpPaid g) = s.persistent (.grpPaid g))
    (hrecip : ∀ c, t.persistent (.payRecip g c) = s.persistent (.payRecip g c))
    (hmember : ∀ a, t.persistent (.mbrProf g a) = s.persistent (.mbrProf g a))
    (hcycle : cycleAt t g = cycleAt s g) :
    (∃ O', Held t g O') ∧ balanceAt t g = balanceAt s g + n := by
  obtain ⟨N, hN, hsum⟩ := hb.new_records hother
  have hpaidAt : grpPaidAt t g = grpPaidAt s g := by
    rw [grpPaidAt, readAt_congr hpaid]
  have hbalance : balanceAt t g = balanceAt s g + n := by
    rw [balanceAt, balanceAt, hb.counter, hpaidAt]
    omega
  -- a record that is there now was there before, or is new
  have hnew : ∀ c a, t.persistent (.contrib g c a) ≠ none →
      s.persistent (.contrib g c a) ≠ none ∨ (c, a) ∈ N := by
    intro c a hrecord
    by_cases hold : s.persistent (.contrib g c a) = none
    · right
      rw [hN]
      obtain ⟨record, hread⟩ := Option.ne_none_iff_exists'.mp
        (fun hnone => hrecord ((readAt_eq_none (htyped c a)).mp hnone))
      refine ⟨record, hread, ?_⟩
      rw [contribAt, (readAt_eq_none (typedAt_of_none hold)).mpr hold]
      exact (Option.some_ne_none record).symm
    · exact Or.inl hold
  -- what is held and what is new do not overlap, as a held record is an old one
  have hdisjoint : Disjoint O N := by
    rw [Finset.disjoint_left]
    intro p hp hpN
    obtain ⟨record, hrecord, hne⟩ := (hN p).mp hpN
    rw [contribAt, readAt_congr (hkept p.1 p.2 (h.records p hp))] at hrecord
    exact hne hrecord
  -- held now: what was held, and what was booked
  refine ⟨⟨O ∪ N, ?_, ?_, ?_, ?_, ?_, ?_⟩, hbalance⟩
  · exact ⟨hb.typed h.typed.1, h.typed.2.congr hpaid⟩
  · rw [hpaidAt]
    exact ⟨hb.fits h.fits.1, h.fits.2⟩
  · intro p hp
    rcases Finset.mem_union.mp hp with hp | hp
    · rw [hkept _ _ (h.records p hp)]
      exact h.records p hp
    · obtain ⟨record, hrecord, -⟩ := (hN p).mp hp
      exact stored_of_read hrecord
  · intro k hk c a hle hrecord
    rw [hcycle] at hk
    rcases hnew c a hrecord with hold | hmem
    · exact Finset.mem_union_left _ (h.ahead k hk c a hle hold)
    · exact Finset.mem_union_right _ hmem
  · intro c a hun hprofile hrecord
    rw [hrecip] at hun
    rw [hmember] at hprofile
    rcases hnew c a hrecord with hold | hmem
    · exact Finset.mem_union_left _ (h.unpaid c a hun hprofile hold)
    · exact Finset.mem_union_right _ hmem
  · rw [hbalance, Finset.sum_union hdisjoint, hsum, h.amounts hkept, h.balance]

end MoneyIn

/-! ## Money out -/

/-- A payout that was sent: the notes, the transfer and the second counter. -/
structure Settles (s v : State) (g : Nat) (grp : SaveData.Group) (recipient : Address)
    (amount : Int) : Prop where
  notes : PaysOut s v g grp recipient amount
  sent : ∃ config, tokenAt s g = some config ∧
    Book.transfer s.ledger config.tokenAddress contractAddress recipient amount = some v.ledger
  member : s.persistent (.mbrProf g recipient) ≠ none
  positive : 0 < amount
  balance : v.persistent (.grpBal g) = s.persistent (.grpBal g)
  counter : grpPaidAt v g = grpPaidAt s g + amount
  typed : TypedAt I128 v.persistent (.grpPaid g)

section MoneyOut

variable {env : Env} {s t v : State} {g : Nat} {O : Finset (Nat × Address)} {amount : Int}
  {grp : SaveData.Group} {recipient member : Address} {u : Unit}

/-- **SENT OR NOT**: a payout that ends without sending leaves the counters. -/
theorem executePayout_settles (hmap : TypedAt MemberMap s.persistent (.grpMbrs g))
    (h : EndsIn (executePayout g) env s v) :
    (v.ledger = s.ledger ∧ SameCounters s v g ∧
        ∀ c, v.persistent (.payRecip g c) = none → s.persistent (.payRecip g c) = none) ∨
      ∃ grp recipient amount, Settles s v g grp recipient amount := by
  -- a payout that ended well settled; one that failed may have noted the recipient
  rcases h with ⟨x, h⟩ | ⟨e, h⟩
  · right
    obtain ⟨grp, recipient, amount, u, config, l, hp, rfl⟩ := executePayout_ok.mp h
    have hpays := hp.paysOut hmap
    obtain ⟨rfl, -⟩ := hp.valid.before hmap
    refine ⟨grp, recipient, amount, hpays, ⟨config, ?_, hp.sent⟩, ?_, hp.settles.amount_pos, ?_, ?_,
      ?_⟩
    · simpa [locked, tokenAt] using hp.token
    · simpa [locked] using hp.valid.member
    · simp [paidState, settled, noted, locked]
    · simp [paidState, settled, noted, locked, grpPaidAt]
    · refine typedAt_of_readAt (a := I128.mk (grpPaidAt s g + amount)) ?_
      simp [paidState, settled, noted, locked, grpPaidAt]
  -- after an error the counters are as they were, whatever else was noted
  · left
    rcases executePayout_err_marks hmap h with hagree | ⟨grp, recipient, amount, -, -, -, rfl⟩
    · refine ⟨hagree.ledger not_false, SameCounters.of_same (hagree.persistent _ (by simp))
        (hagree.persistent _ (by simp)), ?_⟩
      intro c hc
      rwa [hagree.persistent _ (by simp)] at hc
    · refine ⟨rfl, SameCounters.of_same (by simp [noted, locked]) (by simp [noted, locked]), ?_⟩
      intro c hc
      rw [(noted_notes _ g grp.currentCycle c recipient amount env.timestamp).2] at hc
      by_cases he : c = grp.currentCycle
      · rw [if_pos he] at hc
        cases hc
      · rw [if_neg he] at hc
        simpa [locked] using hc

/-- All records of the running cycle are held, and its total is their sum. -/
theorem Held.cycle_sum {cycle : Nat} (h : Held s g O) (hb : Balanced s g cycle)
    (hcycle : cycleAt s g = some cycle) :
    ∑ p ∈ O with p.1 = cycle, paidIn s g p.1 p.2 = cycTotalAt s g cycle := by
  obtain ⟨P, hP, hsum, -⟩ := hb.tallied
  have hfiled : ∀ a, a ∈ P ↔ s.persistent (.contrib g cycle a) ≠ none := by
    intro a
    rw [hP, ne_eq, filedAmount_eq_none hb]
  have himage : (O.filter fun p => p.1 = cycle) = P.image fun a => (cycle, a) := by
    ext ⟨c, a⟩
    simp only [Finset.mem_filter, Finset.mem_image, Prod.mk.injEq]
    constructor
    · rintro ⟨hmem, rfl⟩
      exact ⟨a, (hfiled a).mpr (h.records _ hmem), rfl, rfl⟩
    · rintro ⟨b, hb, rfl, rfl⟩
      exact ⟨h.ahead _ hcycle cycle b (Nat.le_refl _) ((hfiled b).mp hb), rfl⟩
  rw [himage, Finset.sum_image, ← hsum]
  · rfl
  · intro a _ b _ he
    exact (Prod.mk.inj he).2

/-- **RELEASED**: the contributions marked by `q` leave, the others stay held. -/
theorem Held.release (h : Held s g O) (q : Nat × Address → Prop) [DecidablePred q]
    (htyped : TypedAt I128 t.persistent (.grpBal g) ∧ TypedAt I128 t.persistent (.grpPaid g))
    (hfits : grpBalAt t g < i128Bound ∧ 0 ≤ grpPaidAt t g)
    (hbalance : balanceAt t g = balanceAt s g - ∑ p ∈ O with q p, paidIn s g p.1 p.2)
    (hrecords : ∀ c a, t.persistent (.contrib g c a) = s.persistent (.contrib g c a))
    (hahead : ∀ n, cycleAt t g = some n → (∃ m ≤ n, cycleAt s g = some m) ∧
      ∀ c a, n ≤ c → s.persistent (.contrib g c a) ≠ none → ¬ q (c, a))
    (hunpaid : ∀ c a, t.persistent (.payRecip g c) = none → t.persistent (.mbrProf g a) ≠ none →
      s.persistent (.payRecip g c) = none ∧ s.persistent (.mbrProf g a) ≠ none ∧ ¬ q (c, a)) :
    Held t g (O.filter fun p => ¬ q p) where
  typed := htyped
  fits := hfits
  records p hp := by
    rw [hrecords]
    exact h.records p (Finset.mem_filter.mp hp).1
  ahead n hn c a hle hrecord := by
    rw [hrecords] at hrecord
    obtain ⟨⟨m, hmn, hm⟩, hstay⟩ := hahead n hn
    exact Finset.mem_filter.mpr
      ⟨h.ahead m hm c a (hmn.trans hle) hrecord, hstay c a hle hrecord⟩
  -- whoever is still to be paid is not among those released
  unpaid c a hpaid hprofile hrecord := by
    rw [hrecords] at hrecord
    obtain ⟨hpaid', hprofile', hstay⟩ := hunpaid c a hpaid hprofile
    exact Finset.mem_filter.mpr ⟨h.unpaid c a hpaid' hprofile' hrecord, hstay⟩
  -- the sum splits into what is released and what stays
  balance := by
    rw [hbalance, h.balance, ← Finset.sum_filter_add_sum_filter_not O q]
    have hrest : ∑ p ∈ O with ¬ q p, paidIn t g p.1 p.2 = ∑ p ∈ O with ¬ q p, paidIn s g p.1 p.2 :=
      Finset.sum_congr rfl fun p _ => paidIn_congr (hrecords p.1 p.2)
    omega

/-- **PAID OUT**: what the running cycle holds is gone, the rest is still held. -/
theorem Held.paidOut (h : Held s g O) (hb : Balanced s g grp.currentCycle) (hid : grp.id = g)
    (hs : Settles s v g grp recipient amount)
    (hrecords : ∀ c a, t.persistent (.contrib g c a) = s.persistent (.contrib g c a))
    (hbal : t.persistent (.grpBal g) = s.persistent (.grpBal g))
    (hpaid : t.persistent (.grpPaid g) = v.persistent (.grpPaid g))
    (hrecip : ∀ c, t.persistent (.payRecip g c) = v.persistent (.payRecip g c))
    (hmember : ∀ a, t.persistent (.mbrProf g a) = s.persistent (.mbrProf g a))
    (hcycle : cycleAt t g = some (grp.currentCycle + 1)) :
    (∃ O', Held t g O') ∧ balanceAt t g = balanceAt s g + -amount := by
  have hnow := cycleAt_of_group hs.notes.group
  have hcounter : grpPaidAt t g = grpPaidAt s g + amount := by
    rw [grpPaidAt, readAt_congr hpaid]
    exact hs.counter
  have hfirst : grpBalAt t g = grpBalAt s g := by
    rw [grpBalAt, readAt_congr hbal]
  have hbalance : balanceAt t g = balanceAt s g - amount := by
    rw [balanceAt, balanceAt, hcounter, hfirst]
    omega
  -- the records of the current cycle add up to the pool that was sent
  have htotal : ∑ p ∈ O with p.1 = grp.currentCycle, paidIn s g p.1 p.2 = amount := by
    rw [h.cycle_sum hb hnow]
    have htotal := hs.notes.total
    rwa [hid] at htotal
  -- what leaves is exactly the current cycle
  refine ⟨⟨_, h.release (fun p => p.1 = grp.currentCycle) ?_ ?_ (by rw [htotal, hbalance]) hrecords
    ?_ ?_⟩, hbalance⟩
  · exact ⟨h.typed.1.congr hbal, hs.typed.congr hpaid⟩
  · rw [hfirst, hcounter]
    exact ⟨h.fits.1, Int.add_nonneg h.fits.2 hs.positive.le⟩
  · intro n hn
    rw [hcycle] at hn
    obtain rfl := Option.some.inj hn
    exact ⟨⟨_, Nat.le_succ _, hnow⟩, fun c a hle _ hc => by simp only at hc; omega⟩
  · intro c a hun hprofile
    rw [hrecip, hs.notes.payRecip] at hun
    rw [hmember] at hprofile
    -- the current cycle is paid now; the others were before or are not
    by_cases hc : c = grp.currentCycle
    · rw [if_pos hc] at hun
      cases hun
    · rw [if_neg hc] at hun
      exact ⟨hun, hprofile, hc⟩

/-- The loop that adds up a member's contributions, cycle after cycle. -/
theorem memberTotal_loop {cycles : List Nat} {start total : Int}
    (h : foldEach (fun (total : Int) cycle => (do
      let record : Option ContributionRecord ← getOpt (.contrib g cycle member)
      onOption record (pure total) fun record =>
        okOr (checkedI128 (total + record.amount)) .overflow : SaveM Int)) start cycles env s
          = .ok total t) :
    total = start + (cycles.map fun c => paidIn s g c member).sum := by
  induction cycles generalizing start with
  | nil =>
      obtain ⟨rfl, -⟩ := pure_ok.mp h
      simp
  | cons c cycles ih =>
      rw [foldEach_cons, bind_bind_ok, getOpt_bind_ok, onOption_bind_ok, pure_bind_ok] at h
      rw [List.map_cons, List.sum_cons]
      obtain ⟨-, ⟨hnone, hrest⟩ | ⟨record, hrecord, hrest⟩⟩ := h
      · rw [ih hrest, paidIn_of_none hnone, Int.zero_add]
      · rw [okOr_bind_ok] at hrest
        obtain ⟨next, hnext, hrest'⟩ := hrest
        obtain ⟨-, rfl⟩ := checkedI128_eq_some.mp hnext
        rw [ih hrest', paidIn_of_record hrecord, Int.add_assoc]

/-- The total of a withdrawal is the sum over the cycles so far. -/
theorem memberTotal_eq {total : Int} (hgrp : groupAt s g = some grp)
    (h : getMemberTotalContributions g member env s = .ok total t) :
    total = ∑ c ∈ Finset.range (grp.currentCycle + 1), paidIn s g c member := by
  obtain ⟨grp', hgrp', hloop⟩ := getOr_bind_ok.mp h
  rw [groupAt] at hgrp
  rw [hgrp] at hgrp'
  obtain rfl := Option.some.inj hgrp'
  rw [memberTotal_loop hloop, Int.zero_add]
  rfl

/-- A withdrawal gets through only while the running cycle has no total, and so
    no records. -/
theorem idle_cycle {cycle : Nat} (hb : Balanced s g cycle) (hpos : Positive s)
    (hidle : TypedAt U64 s.persistent (.cycTotal g cycle)) (a : Address) :
    s.persistent (.contrib g cycle a) = none := by
  obtain ⟨P, hP, hsum, -⟩ := hb.tallied
  -- a total that reads as a time is no total: it counts for zero
  have hzero : cycTotalAt s g cycle = 0 := by
    cases hread : readAt I128 s.persistent (.cycTotal g cycle) with
    | none => rw [cycTotalAt, hread, Option.getD_none]
    | some n =>
        obtain ⟨m, hm⟩ := hidle _ ((readAt_eq_some _ _ _).mp hread)
        cases hm
  have hnonneg : ∀ b ∈ P, 0 ≤ (filedAmount s g cycle b).getD 0 := by
    intro b _
    cases hrecord : contribAt s g cycle b with
    | none => simp [filedAmount, hrecord]
    | some record => simpa [filedAmount, hrecord] using (hpos g cycle b record hrecord).le
  -- positive records that add up to zero are none
  by_contra hne
  have hmem : a ∈ P := by
    rw [hP, ne_eq, filedAmount_eq_none hb]
    exact hne
  rw [hzero] at hsum
  have hamount := (Finset.sum_eq_zero_iff_of_nonneg hnonneg).mp hsum a hmem
  obtain ⟨record, hrecord⟩ := Option.ne_none_iff_exists'.mp
    (fun hnone => hne ((readAt_eq_none (hb.typed a)).mp hnone))
  rw [filedAmount, contribAt, hrecord] at hamount
  exact absurd hamount (hpos g cycle a record hrecord).ne'

/-- The call is by a member with a contribution to a cycle that was paid out, who
    has not been paid itself. -/
def WithdrawsPaid (s : State) (g : Nat) (member : Address) : Prop :=
  paidInTurn s g member = false ∧ ∃ grp, groupAt s g = some grp ∧ ∃ c ≤ grp.currentCycle,
    s.persistent (.contrib g c member) ≠ none ∧ s.persistent (.payRecip g c) ≠ none

/-- The member's contributions so far are held, where none went into a payout. -/
theorem Held.member_sum (h : Held s g O) (hmem : s.persistent (.mbrProf g member) ≠ none)
    (htyped : ∀ c, TypedAt ContributionRecord s.persistent (.contrib g c member)) {cycle : Nat}
    (hunpaid : ∀ c ≤ cycle, s.persistent (.contrib g c member) ≠ none →
      s.persistent (.payRecip g c) = none) :
    ∑ p ∈ O with p.2 = member ∧ p.1 ≤ cycle, paidIn s g p.1 p.2
      = ∑ c ∈ Finset.range (cycle + 1), paidIn s g c member := by
  have hsub : (O.filter fun p => p.2 = member ∧ p.1 ≤ cycle)
      ⊆ (Finset.range (cycle + 1)).image fun c => (c, member) := by
    rintro ⟨c, a⟩ hp
    obtain ⟨-, rfl, hle⟩ := Finset.mem_filter.mp hp
    exact Finset.mem_image.mpr ⟨c, Finset.mem_range.mpr (Nat.lt_succ_of_le hle), rfl⟩
  rw [Finset.sum_subset hsub, Finset.sum_image]
  · intro c _ c' _ he
    exact (Prod.mk.inj he).1
  · intro p hp hout
    obtain ⟨c, hc, rfl⟩ := Finset.mem_image.mp hp
    have hle : c ≤ cycle := Nat.le_of_lt_succ (Finset.mem_range.mp hc)
    refine paidIn_of_none ((readAt_eq_none (htyped c)).mpr ?_)
    by_contra hrecord
    exact hout (Finset.mem_filter.mpr
      ⟨h.unpaid c member (hunpaid c hle hrecord) hmem hrecord, rfl, hle⟩)

/-- A withdrawal takes the member's records of the cycles so far out of what is held, and
    the first counter falls by exactly their sum. -/
theorem Held.withdraw {cycle : Nat} {total : Int} (h : Held s g O) (hnow : cycleAt s g = some cycle)
    (hidle : s.persistent (.contrib g cycle member) = none)
    (hsum : ∑ p ∈ O with p.2 = member ∧ p.1 ≤ cycle, paidIn s g p.1 p.2 = total)
    (htotal : 0 < total) (hfirst : grpBalAt t g = grpBalAt s g - total)
    (htyped : TypedAt I128 t.persistent (.grpBal g))
    (hpaid : t.persistent (.grpPaid g) = s.persistent (.grpPaid g))
    (hrecords : ∀ c a, t.persistent (.contrib g c a) = s.persistent (.contrib g c a))
    (hrecip : ∀ c, t.persistent (.payRecip g c) = s.persistent (.payRecip g c))
    (hmember : ∀ a, t.persistent (.mbrProf g a)
      = if a = member then none else s.persistent (.mbrProf g a))
    (hcycle : cycleAt t g = cycleAt s g) :
    Held t g (O.filter fun p => ¬ (p.2 = member ∧ p.1 ≤ cycle)) ∧
      balanceAt t g = balanceAt s g + -total := by
  have hsecond : grpPaidAt t g = grpPaidAt s g := by
    rw [grpPaidAt, readAt_congr hpaid]
  have hbalance : balanceAt t g = balanceAt s g - total := by
    rw [balanceAt, balanceAt, hfirst, hsecond]
    omega
  refine ⟨h.release (fun p => p.2 = member ∧ p.1 ≤ cycle) ⟨htyped, h.typed.2.congr hpaid⟩ ?_
    (by rw [hsum, hbalance]) hrecords ?_ ?_, hbalance⟩
  · rw [hfirst, hsecond]
    have hbound := h.fits.1
    exact ⟨by omega, h.fits.2⟩
  · intro n hn
    rw [hcycle, hnow] at hn
    obtain rfl := Option.some.inj hn
    refine ⟨⟨cycle, Nat.le_refl _, hnow⟩, ?_⟩
    rintro c a hle hrecord ⟨ha, hle'⟩
    -- nobody has contributed to the running cycle
    obtain rfl : c = cycle := Nat.le_antisymm hle' hle
    obtain rfl : a = member := ha
    exact hrecord hidle
  · intro c a hun hprofile
    rw [hrecip] at hun
    rw [hmember] at hprofile
    by_cases ha : a = member
    · rw [if_pos ha] at hprofile
      exact absurd rfl hprofile
    · rw [if_neg ha] at hprofile
      exact ⟨hun, hprofile, fun hq => ha hq.1⟩

/-- The answer of `has_received_payout` is whether the member's turn was paid. -/
theorem received_eq {received : Bool} (h : hasReceivedPayout g member env s = .ok received t) :
    received = paidInTurn s g member := by
  rw [hasReceivedPayout, getOpt_bind_ok, onOption_ok] at h
  rw [paidInTurn]
  obtain ⟨-, ⟨hnone, hrest⟩ | ⟨p, hp, hrest⟩⟩ := h
  · rw [has_bind_ok, failIf_bind_ok, pure_ok] at hrest
    rw [← hrest.2.1, eligAt, hnone]
    rfl
  · rw [getOpt_bind_ok, pure_ok] at hrest
    rw [← hrest.2.1, eligAt, hp]
    rfl

/-- **WITHDRAWN**: the member's contributions so far are gone, where none went
    into a payout. -/
theorem Held.withdrawn (h : Held s g O) (horder : InOrder s) (hpos : Positive s)
    (hspare : ¬ WithdrawsPaid s g member) (hrun : emergencyWithdraw g member env s = .ok u t) :
    ∃ n, MovesBy s t g n ∧ (∃ O', Held t g O') ∧ balanceAt t g = balanceAt s g + n := by
  obtain ⟨grp, total, received, hopen, hend⟩ := emergencyWithdraw_ok hrun
  have hnow := cycleAt_of_group hopen.group
  -- money went back to the member, or only the profile went
  rcases hend with ⟨rfl, htotal, config, l, htoken, hsent, rfl⟩ | ⟨-, rfl⟩
  · have hunpaid : ∀ c ≤ grp.currentCycle, s.persistent (.contrib g c member) ≠ none →
        s.persistent (.payRecip g c) = none := by
      intro c hle hrecord
      by_contra hpaid
      exact hspare ⟨(received_eq hopen.received).symm, grp, hopen.group, c, hle, hrecord, hpaid⟩
    have hsum := h.member_sum hopen.profile (fun c => (horder.balanced g c).typed member) hunpaid
    rw [← memberTotal_eq hopen.group hopen.total] at hsum
    have hne : member ≠ contractAddress := by
      rintro rfl
      exact env.contract_not_signer hopen.signed
    -- the cycle the member leaves in has no record of his
    have hidle := idle_cycle (horder.balanced g _) hpos hopen.idle member
    obtain ⟨hheld, hbalance⟩ := h.withdraw (t := ((s.set (.grpBal g)
      (Codec.encode (I128.mk (grpBalAt s g - total)))).remove (.mbrProf g member)).setLedger l)
      hnow hidle hsum htotal (by simp [grpBalAt])
      (typedAt_of_readAt (a := I128.mk (grpBalAt s g - total)) (by simp)) (by simp) (by simp)
      (by simp) (by simp) (by simp [cycleAt, groupAt])
    exact ⟨-total, Or.inr ⟨config, htoken, flow_of_transfer hne hsent⟩, ⟨_, hheld⟩, hbalance⟩
  -- the money stayed: the member had been paid, and only the profile is gone
  · have hsame : SameCounters s (s.remove (.mbrProf g member)) g :=
      SameCounters.of_same (by simp) (by simp)
    refine ⟨0, Or.inl ⟨rfl, rfl⟩, ⟨O, h.idle hsame (by simp) (by simp) ?_ ?_⟩, ?_⟩
    · intro a ha
      left
      intro hnone
      simp [hnone] at ha
    · intro n hn
      exact Or.inl ⟨n, by simpa [cycleAt, groupAt] using hn, Nat.le_refl n⟩
    · rw [hsame.balanceAt_eq, Int.add_zero]

/-- The sweep of a dissolution refunds the member. -/
def Refundable (s : State) (g c : Nat) (a : Address) : Prop :=
  ∃ p, eligAt s g a = some p ∧ payRecipAt s g p.val ≠ some a ∧ contribAt s g c a ≠ none ∧
    s.persistent (.refund g c a) = none

/-- The vote completes the tally while somebody is to be refunded. -/
def DissolvesFunded (s : State) (g : Nat) : Prop :=
  ∃ grp, groupAt s g = some grp ∧ grp.memberCount ≤ dissolveVotes s g ∧
    ∃ a ∈ (rosterAt s g).members, Refundable s g grp.currentCycle a

/-- A dissolution does nothing for a member who has nothing to get back. -/
theorem refundOnDissolution_idle {c time : Nat} {tok : Address} (hno : ¬ Refundable s g c member)
    (h : refundOnDissolution g c tok time member env s = .ok u t) : t = s := by
  rw [refundOnDissolution, getOpt_bind_ok, onOption_ok] at h
  obtain ⟨-, ⟨-, hrest⟩ | ⟨p, hp, hrest⟩⟩ := h
  · exact (pure_ok.mp hrest).2.symm
  rw [getOpt_bind_ok, runIf_ok] at hrest
  obtain ⟨-, ⟨hrecip, hrest⟩ | ⟨-, rfl⟩⟩ := hrest
  swap
  · rfl
  rw [getOpt_bind_ok, onOption_ok] at hrest
  obtain ⟨-, ⟨-, hrest⟩ | ⟨record, hrecord, hrest⟩⟩ := hrest
  · exact (pure_ok.mp hrest).2.symm
  rw [has_bind_ok, runIf_ok] at hrest
  rcases hrest with ⟨hfree, -⟩ | ⟨-, rfl⟩
  · refine absurd ⟨p, hp, hrecip, ?_, ?_⟩ hno
    · rw [contribAt, hrecord]
      exact Option.some_ne_none record
    · simpa using hfree
  · rfl

/-- A vote that finds nobody to refund sends nothing. -/
theorem voteDissolve_idle {caller : Address} (hno : ¬ DissolvesFunded s g)
    (h : voteDissolve g caller env s = .ok u t) : t.ledger = s.ledger := by
  obtain ⟨grp, hgrp, -, ⟨hfull, config, -, hloop⟩ | ⟨-, rfl⟩⟩ := voteDissolve_ok h
  · refine (forEach_invariant
      (I := fun v => v = dissolved (voted s g caller (dissolveVotes s g)) g grp) ?_ rfl hloop)
      ▸ rfl
    rintro a ha v w rfl hstep
    refine refundOnDissolution_idle ?_ hstep
    rintro ⟨p, hp, hrecip, hrecord, hfree⟩
    refine hno ⟨grp, hgrp, hfull, a, ha, p, ?_, ?_, ?_, ?_⟩
    · simpa [dissolved, voted, eligAt] using hp
    · simpa [dissolved, voted, payRecipAt] using hrecip
    · simpa [dissolved, voted, contribAt] using hrecord
    · simpa [dissolved, voted] using hfree
  · rfl

end MoneyOut

/-! ## Everything else -/

section Migration

variable {env : Env} {s t : State} {g : Nat} {u : Unit}

/-- A call that does nothing keeps the counters. -/
theorem sameCounters_refl (s : State) (g : Nat) : SameCounters s s g :=
  SameCounters.of_same rfl rfl

/-- Storing a zero where nothing was stored. -/
theorem sameCounters_zero {k : Key} (h : s.persistent k = none) : SameCounters s (s.set k (Codec.encode (I128.mk 0))) g := by
  have hread : readAt I128 s.persistent k = none := (readAt_eq_none (typedAt_of_none h)).mpr h
  have hvalue : ∀ k', ((readAt I128 (s.set k (Codec.encode (I128.mk 0))).persistent k').getD
      ⟨0⟩).val = ((readAt I128 s.persistent k').getD ⟨0⟩).val := by
    intro k'
    rw [readAt_set]
    by_cases he : k' = k
    · rw [if_pos he, he, hread, decode_encode]
      rfl
    · rw [if_neg he]
  have htyped : ∀ k', TypedAt I128 s.persistent k' →
      TypedAt I128 (s.set k (Codec.encode (I128.mk 0))).persistent k' := by
    intro k' hk'
    by_cases he : k' = k
    · rw [he]
      exact typedAt_of_readAt (a := I128.mk 0) (by simp)
    · exact (typedAt_set_of_ne s _ he).mpr hk'
  exact ⟨fun hs => ⟨htyped _ hs.1, htyped _ hs.2⟩, hvalue _, hvalue _⟩

/-- The migration of one group writes its token configuration, not its counters. -/
theorem migrateGroup_counters {j : Nat} (h : migrateGroupV1ToV2 j env s = .ok u t) :
    SameCounters s t g := by
  rw [migrateGroupV1ToV2, has_bind_ok, runIf_ok] at h
  rcases h with ⟨-, h⟩ | ⟨-, rfl⟩
  · rw [has_bind_ok] at h
    obtain ⟨⟨⟩, v, hfirst, hrest⟩ := bind_ok.mp h
    have hv : SameCounters s v g := by
      rcases runIf_ok.mp hfirst with ⟨hnone, hput⟩ | ⟨-, rfl⟩
      · rw [← put_ok.mp hput]
        exact sameCounters_zero (by simpa using hnone)
      · exact sameCounters_refl s g
    refine hv.trans ?_
    rw [has_bind_ok] at hrest
    rcases runIf_ok.mp hrest with ⟨hnone, hput⟩ | ⟨-, rfl⟩
    · rw [← put_ok.mp hput]
      exact sameCounters_zero (by simpa using hnone)
    · exact sameCounters_refl v g
  · exact sameCounters_refl s g

/-- Entries beside the two counters. -/
theorem sameCounters_set {k : Key} {v : Val} (hk : k.kind ≠ .grpBal ∧ k.kind ≠ .grpPaid) :
    SameCounters s (s.set k v) g := by
  refine SameCounters.of_same ?_ ?_
  · rw [HostState.set_persistent, if_neg]
    rintro rfl
    exact hk.1 rfl
  · rw [HostState.set_persistent, if_neg]
    rintro rfl
    exact hk.2 rfl

/-- Nor does the migration as a whole, which goes through the groups one by one. -/
theorem migrateV1ToV2_counters (h : migrateV1ToV2 env s = .ok u t) : SameCounters s t g := by
  rw [migrateV1ToV2, has_bind_ok] at h
  obtain ⟨⟨⟩, v, hpause, h⟩ := bind_ok.mp h
  rw [has_bind_ok] at h
  obtain ⟨⟨⟩, w, hguard, h⟩ := bind_ok.mp h
  obtain ⟨-, hloop⟩ := getD_bind_ok.mp h
  have hv : SameCounters s v g := by
    rcases runIf_ok.mp hpause with ⟨-, hput⟩ | ⟨-, rfl⟩
    · rw [← put_ok.mp hput]
      exact sameCounters_set ⟨by decide, by decide⟩
    · exact sameCounters_refl s g
  have hw : SameCounters v w g := by
    rcases runIf_ok.mp hguard with ⟨-, hput⟩ | ⟨-, rfl⟩
    · rw [← put_ok.mp hput]
      exact sameCounters_set ⟨by decide, by decide⟩
    · exact sameCounters_refl v g
  exact forEach_invariant (I := fun x => SameCounters s x g)
    (fun _ _ x y hx hstep => hx.trans (migrateGroup_counters hstep)) (hv.trans hw) hloop

/-- **A MIGRATION** stores zeros and changes no figure. -/
theorem migrate_counters (h : migrate env s = .ok u t) : SameCounters s t g := by
  obtain ⟨-, h⟩ := getD_bind_ok.mp h
  rcases runIf_ok.mp h with ⟨-, hrun⟩ | ⟨-, rfl⟩
  · obtain ⟨⟨⟩, v, hmigrate, hput⟩ := bind_ok.mp hrun
    refine (migrateV1ToV2_counters hmigrate).trans ?_
    rw [← put_ok.mp hput]
    exact sameCounters_set ⟨by decide, by decide⟩
  · exact sameCounters_refl s g

instance : Within (scope [.anywhere .storeVer, .anywhere .conVer] False False)
    initializeVersions := by
  rw [initializeVersions]
  infer_instance

/-- A new configuration is of the contract, not of a group. -/
theorem updateConfig_counters {config : ContractConfig} (h : updateConfig config env s = .ok u t) :
    SameCounters s t g := by
  rw [updateConfig, failIf_bind_ok, getOpt_bind_ok] at h
  obtain ⟨-, -, h⟩ := h
  obtain ⟨⟨⟩, v, hopen, h⟩ := bind_ok.mp h
  obtain ⟨⟨⟩, w, hmigrate, hput⟩ := bind_ok.mp h
  have hv : SameCounters s v g := by
    rcases onOption_ok.mp hopen with ⟨-, hfirst⟩ | ⟨current, -, hauth⟩
    · obtain ⟨-, hinit⟩ := requireAuth_bind_ok.mp hfirst
      have hagree := Within.agree_ok
        (w := scope [.anywhere .storeVer, .anywhere .conVer] False False) hinit
      exact SameCounters.of_same (hagree.persistent _ (by simp)) (hagree.persistent _ (by simp))
    · rw [Within.eq_of_ok hauth]
      exact sameCounters_refl s g
  refine (hv.trans (migrate_counters hmigrate)).trans ?_
  rw [← put_ok.mp hput]
  exact sameCounters_set ⟨by decide, by decide⟩

/-- The entry point of the migration keeps them as well. -/
theorem migrateStorage_counters {caller : Address} (h : migrateStorage caller env s = .ok u t) :
    SameCounters s t g := by
  obtain ⟨⟨⟩, v, hadmin, hmigrate⟩ := bind_ok.mp h
  obtain rfl := Within.eq_of_ok hadmin
  exact migrate_counters hmigrate

end Migration

/-- **SPARING**: the calls that break the figure, for a group with a token.  No
    refund goes through, by request or by a dissolution, nobody withdraws what
    went into a payout, and neither unpaid contributions nor penalties are
    recorded. -/
def Sparing (s : State) : Call → Prop
  | .contributeWithProof g _ _ | .applyPenalty g _ _ | .recoverPenalty g _ _ _ =>
      s.persistent (.grpTok g) = none
  | .requestRefund _ _ _ => False
  | .voteDissolve g _ => ¬ DissolvesFunded s g
  | .emergencyWithdraw g member => ¬ WithdrawsPaid s g member
  | _ => True

/-- **SOLVENT**: all books are in order, what is tracked is held, and the groups
    of a token together are covered by the contract's holding of it. -/
structure Solvent (s : State) : Prop where
  registry : Registry s
  order : InOrder s
  positive : Positive s
  pools : Unfed s
  issued : TokensIssued s
  fresh : ∀ g, lastId s < g → Bare g s
  gathering : ∀ g grp, groupAt s g = some grp → grp.status = .pending → Bare g s
  outsider : ∀ g, Tracked s g → s.persistent (.mbrProf g contractAddress) = none
  held : ∀ g, Tracked s g → ∃ O, Held s g O
  covered : ∀ (tok : Address) (G : Finset Nat), (∀ g ∈ G, lastId s < g ∨
    ∃ config, tokenAt s g = some config ∧ config.tokenAddress = tok) →
      ∑ g ∈ G, balanceAt s g ≤ escrow s tok

section Others

variable {env : Env} {s t : State} {g : Nat} {c : Call}

/-- A group that has a token after a call had one before it, or was not there yet. -/
theorem tracked_before (hreg : Registry s) (h : c.body env s = .ok () t) (ht : Tracked t g) :
    Tracked s g := by
  have hlast := (grows_step hreg h).last
  by_cases hg : lastId s < g
  · exact Or.inl hg
  · rcases ht with hfresh | htoken
    · omega
    · right
      rwa [token_step h (by omega)] at htoken

/-- No record of the group where no contribution to it goes through. -/
theorem records_other (hs : InOrder s) (hc : contributesTo c ≠ some g) (h : c.body env s = .ok () t)
    (cycle : Nat) (a : Address) :
    t.persistent (.contrib g cycle a) = s.persistent (.contrib g cycle a) := by
  cases hto : contributesTo c with
  | none => exact call_sameBooks hs.rosters hto h _ (by simp [bookKinds])
  | some g' =>
      obtain ⟨grp, -, -, hfiled⟩ := contribution_filed hto h
      refine hfiled.elsewhere ?_ cycle a
      rintro rfl
      exact hc hto

/-- A merged group is not tracked. -/
theorem merge_untracked {g₁ g₂ : Nat} (hissued : TokensIssued s)
    (h : (Call.mergeGroups g₁ g₂).body env s = .ok () t) (ht : Tracked t g) : g ≠ lastId s + 1 := by
  obtain ⟨n, hn⟩ := quietly_ok.mp h
  rintro rfl
  rcases ht with hfresh | htoken
  · rw [mergeGroups_lastId hn] at hfresh
    exact lt_irrefl _ hfresh
  · have hagree := Within.agree_ok (w := Call.footprint (.mergeGroups g₁ g₂)) hn
    rw [hagree.persistent _ (by simp)] at htoken
    exact htoken (hissued _ (Nat.lt_succ_self _))

/-- A group with a record and no token is not tracked. -/
theorem away_of_tokenless {g' : Nat} {grp : SaveData.Group} (hreg : Registry s)
    (htoken : s.persistent (.grpTok g') = none) (hgrp : groupAt s g' = some grp)
    (hg : Tracked s g) : g ≠ g' := by
  rintro rfl
  rcases hg with hfresh | hstored
  · rw [(hreg.below g hfresh).1] at hgrp
    cases hgrp
  · exact hstored htoken

/-- The counters of a group that a call neither pays into nor out of. -/
theorem counters_other (hs : Solvent s) (hc : Sparing s c) (h : c.body env s = .ok () t)
    (ht : Tracked t g) (hin : contributesTo c ≠ some g) (hout : returnsTo c ≠ some g) :
    SameCounters s t g := by
  have hagree := Within.agree_ok (w := c.footprint) h
  have hbefore := tracked_before hs.registry h ht
  -- the calls that move money of their group are of other groups here
  cases c with
  | updateConfig config => exact updateConfig_counters h
  | migrateStorage caller => exact migrateStorage_counters h
  | mergeGroups g₁ g₂ =>
      have hne := merge_untracked hs.issued h ht
      obtain ⟨n, hn⟩ := quietly_ok.mp h
      exact SameCounters.of_same (mergeGroups_frame hn _ hne ⟨by simp, by simp⟩)
        (mergeGroups_frame hn _ hne ⟨by simp, by simp⟩)
  | applyPenalty g' a cycle =>
      obtain ⟨n, hn⟩ := quietly_ok.mp h
      obtain ⟨grp, hgrp, -⟩ := getOr_bind_ok.mp hn
      have hne : g' ≠ g := (away_of_tokenless hs.registry hc hgrp hbefore).symm
      exact SameCounters.of_same (hagree.persistent _ (by simp [hne.symm]))
        (hagree.persistent _ (by simp))
  | recoverPenalty g' a cycle n =>
      obtain ⟨-, hrest⟩ := requireAuth_bind_ok.mp h
      obtain ⟨grp, hgrp, -⟩ := getOr_bind_ok.mp hrest
      have hne : g ≠ g' := away_of_tokenless hs.registry hc hgrp hbefore
      exact SameCounters.of_same (hagree.persistent _ (by simp [hne]))
        (hagree.persistent _ (by simp))
  | contribute g' m n | contributeBatch g' m cycles | executeAutoContributions g'
  | contributeWithProof g' m n =>
      have hne : g ≠ g' := fun he => hin (congrArg some he.symm)
      exact SameCounters.of_same (hagree.persistent _ (by simp [hne]))
        (hagree.persistent _ (by simp [hne]))
  | executePayout g' | tick g' | requestRefund g' cycle a | emergencyWithdraw g' a
  | voteDissolve g' a | claimCompletionReward a g' =>
      have hne : g ≠ g' := fun he => hout (congrArg some he.symm)
      exact SameCounters.of_same (hagree.persistent _ (by simp [hne]))
        (hagree.persistent _ (by simp [hne]))
  | _ =>
      exact SameCounters.of_same (hagree.persistent _ (Place.other_kind rfl))
        (hagree.persistent _ (Place.other_kind rfl))

/-- The recipients of a group, where no payout of it is called. -/
theorem recipients_other (hout : returnsTo c ≠ some g) (h : c.body env s = .ok () t) (cycle : Nat) :
    t.persistent (.payRecip g cycle) = s.persistent (.payRecip g cycle) := by
  have hagree := Within.agree_ok (w := c.footprint) h
  cases c with
  | executePayout g' | tick g' =>
      have hne : g ≠ g' := by
        rintro rfl
        exact hout rfl
      exact hagree.persistent _ (by simp [hne])
  | _ => exact hagree.persistent _ (Place.other_kind rfl)

/-- Whoever is a member was one before, unless the group has no records. -/
theorem members_other (hs : Solvent s) (h : c.body env s = .ok () t) (a : Address)
    (ha : t.persistent (.mbrProf g a) ≠ none) :
    s.persistent (.mbrProf g a) ≠ none ∨ Bare g s := by
  by_cases hg : lastId s < g
  · exact Or.inr (hs.fresh g hg)
  · rcases (member_step h (by omega) a).mp ha with henters | ⟨hmem, -⟩
    · cases c with
      | joinGroup g' m referrer =>
          obtain ⟨rfl, rfl⟩ := henters
          obtain ⟨grp, hopen, -⟩ := joinGroup_ok h
          exact Or.inr (hs.gathering _ grp hopen.group hopen.pending)
      | _ => cases henters
    · exact Or.inl hmem

/-- An advanced group is not pending unless it already was. -/
theorem advanced_pending {grp : SaveData.Group} (h : grp.advanced.status = .pending) :
    grp.status = .pending := by
  rw [Group.advanced] at h
  by_cases hc : ({ grp with currentCycle := grp.currentCycle + 1 } : SaveData.Group).isComplete
  · rw [if_pos hc] at h
    cases h
  · rwa [if_neg hc] at h

/-- Nothing goes back to `Pending`. -/
theorem rewrites_pending {grp grp' : SaveData.Group} (h : Rewrites g grp c grp')
    (hpending : grp'.status = .pending) : grp.status = .pending := by
  cases h with
  | payout | tick | advance => exact advanced_pending hpending
  | update | metadata | amount | invitation | proof | dynamic | archive | join | remove =>
      exact hpending
  | activate | pause | resume | dispute | resolve | dissolve => cases hpending

/-- The cycle of a group never falls, and a group that had none before the call was bare. -/
theorem cycle_other (hs : Solvent s) (h : c.body env s = .ok () t) {n : Nat}
    (hn : cycleAt t g = some n) : (∃ m, cycleAt s g = some m ∧ m ≤ n) ∨ Bare g s := by
  obtain ⟨grp', hgrp', rfl⟩ := Option.map_eq_some_iff.mp hn
  rcases record_rewritten hs.registry h g grp' hgrp' with ⟨grp, hgrp, rfl | hrewrites⟩ | ⟨rfl, -⟩
  · exact Or.inl ⟨_, cycleAt_of_group hgrp, Nat.le_refl _⟩
  · exact Or.inl ⟨_, cycleAt_of_group hgrp, rewrites_cycle hrewrites⟩
  · exact Or.inr (hs.fresh _ (Nat.lt_succ_self _))

/-- **ELSEWHERE**: a group that a call neither pays into nor out of. -/
theorem held_other (hs : Solvent s) (hc : Sparing s c) (h : c.body env s = .ok () t)
    (ht : Tracked t g) (hin : contributesTo c ≠ some g) (hout : returnsTo c ≠ some g) :
    (∃ O, Held t g O) ∧ balanceAt t g = balanceAt s g := by
  obtain ⟨O, hO⟩ := hs.held g (tracked_before hs.registry h ht)
  have hsame := counters_other hs hc h ht hin hout
  refine ⟨⟨O, hO.idle hsame (records_other hs.order hin h) ?_ (members_other hs h)
    fun n hn => cycle_other hs h hn⟩, hsame.balanceAt_eq⟩
  intro cycle hnone
  rwa [recipients_other hout h] at hnone

/-- What stays of the rest of the invariant, whatever the call. -/
theorem gathering_step (hs : Solvent s) (h : c.body env s = .ok () t) {grp' : SaveData.Group}
    (hgrp' : groupAt t g = some grp') (hpending : grp'.status = .pending) : Bare g t := by
  have hbefore : ∃ grp, groupAt s g = some grp ∧ grp.status = .pending := by
    rcases record_rewritten hs.registry h g grp' hgrp' with ⟨grp, hgrp, rfl | hrewrites⟩ | ⟨-, hborn⟩
    · exact ⟨_, hgrp, hpending⟩
    · exact ⟨grp, hgrp, rewrites_pending hrewrites hpending⟩
    · obtain ⟨_, _, _, _, _, _, _, _, _, rfl⟩ := hborn
      cases hpending
  obtain ⟨grp, hgrp, hpending'⟩ := hbefore
  have hin : contributesTo c ≠ some g := by
    intro hto
    obtain ⟨grp'', hgrp'', hactive, -⟩ := contribution_filed hto h
    rw [hgrp] at hgrp''
    obtain rfl := Option.some.inj hgrp''
    rw [hpending'] at hactive
    cases hactive
  intro cycle a
  rw [records_other hs.order hin h]
  exact hs.gathering g grp hgrp hpending' cycle a

/-- Groups beyond the last id are bare after every call, as they were before it. -/
theorem fresh_step (hs : Solvent s) (h : c.body env s = .ok () t) (hg : lastId t < g) : Bare g t := by
  have hlast := (grows_step hs.registry h).last
  have hin : contributesTo c ≠ some g := by
    intro hto
    obtain ⟨grp, hgrp, -⟩ := contribution_filed hto h
    rw [(hs.registry.below g (by omega)).1] at hgrp
    cases hgrp
  intro cycle a
  rw [records_other hs.order hin h]
  exact hs.fresh g (by omega) cycle a

/-- Nobody joins a group that is not there yet. -/
theorem profiles_fresh (hs : Solvent s) (h : c.body env s = .ok () t) (ht : Tracked t g)
    (hg : lastId s < g) (hnone : s.persistent (.mbrProf g contractAddress) = none) :
    t.persistent (.mbrProf g contractAddress) = none := by
  have hagree := Within.agree_ok (w := c.footprint) h
  -- a group that is not there yet is none of those the call is about
  have haway : ∀ g' grp, groupAt s g' = some grp → g ≠ g' := by
    rintro g' grp hgrp rfl
    rw [(hs.registry.below g hg).1] at hgrp
    cases hgrp
  rw [← hnone]
  cases c with
  | assignPayoutPositions g' caller mode =>
      obtain ⟨-, hrest⟩ := requireAuth_bind_ok.mp h
      obtain ⟨grp, hgrp, -⟩ := getOr_bind_ok.mp hrest
      exact hagree.persistent _ (by simp [haway g' grp hgrp])
  | joinGroup g' m referrer =>
      obtain ⟨grp, hopen, -⟩ := joinGroup_ok h
      exact hagree.persistent _ (by simp [haway g' grp hopen.group])
  | removeMember g' m =>
      obtain ⟨grp, profile, hopen, -⟩ := removeMember_ok h
      exact hagree.persistent _ (by simp [haway g' grp hopen.group])
  | emergencyWithdraw g' m =>
      obtain ⟨grp, total, received, hopen, -⟩ := emergencyWithdraw_ok h
      exact hagree.persistent _ (by simp [haway g' grp hopen.group])
  | enableAutoContribute g' m =>
      obtain ⟨-, hrest⟩ := requireAuth_bind_ok.mp h
      obtain ⟨grp, hgrp, -⟩ := getOr_bind_ok.mp hrest
      exact hagree.persistent _ (by simp [haway g' grp hgrp])
  | disableAutoContribute g' m =>
      obtain ⟨hsigned, hrest⟩ := requireAuth_bind_ok.mp h
      have hne : contractAddress ≠ m := by
        rintro rfl
        exact env.contract_not_signer hsigned
      simp only [has_bind_ok, failIf_bind_ok, getOr_bind_ok, runIf_ok, put_bind_ok, del_ok] at hrest
      obtain ⟨-, profile, -, ⟨-, rfl⟩ | ⟨-, rfl⟩⟩ := hrest
      · simp [hne]
      · rfl
  | mergeGroups g₁ g₂ =>
      obtain ⟨n, hn⟩ := quietly_ok.mp h
      exact mergeGroups_frame hn _ (merge_untracked hs.issued h ht) ⟨by simp, by simp⟩
  | _ => exact hagree.persistent _ (Place.other_kind rfl)

/-- The contract is no member of anything. -/
theorem outsider_step (hs : Solvent s) (h : c.body env s = .ok () t) (ht : Tracked t g) :
    t.persistent (.mbrProf g contractAddress) = none := by
  have hnone := hs.outsider g (tracked_before hs.registry h ht)
  by_cases hg : lastId s < g
  · exact profiles_fresh hs h ht hg hnone
  · by_contra hne
    rcases (member_step h (by omega) contractAddress).mp hne with henters | ⟨hmem, -⟩
    · cases c with
      | joinGroup g' m referrer =>
          obtain ⟨-, rfl⟩ := henters
          obtain ⟨grp, hopen, -⟩ := joinGroup_ok h
          exact env.contract_not_signer hopen.signed
      | _ => cases henters
    · exact hmem hnone

end Others

/-! ## The step -/

section Step

variable {env : Env} {s t v : State} {g : Nat} {c : Call} {grp : SaveData.Group}

/-- A payout or a tick: `t` is one cycle on from where the executor ended. -/
theorem payment_money (hs : Solvent s) (hgrp : groupAt s g = some grp)
    (hends : EndsIn (executePayout g) env s v) (hledger : t.ledger = v.ledger)
    (hsame : ∀ k, k ≠ .grp g → t.persistent k = v.persistent k)
    (hcycle : cycleAt t g = some (grp.currentCycle + 1)) :
    ∃ n, MovesBy s t g n ∧
      (Tracked s g → (∃ O, Held t g O) ∧ balanceAt t g = balanceAt s g + n) := by
  have hmap := hs.order.rosters g
  -- a payout leaves records, rosters and tokens alone
  have hframe : ∀ k : Key, k.kind ∈ [Kind.contrib, .cycTotal, .grpMbrs, .grpTok, .refund, .mbrProf] →
      t.persistent k = s.persistent k := by
    intro k hk
    rw [hsame k (by rintro rfl; simp at hk)]
    exact executePayout_frame hmap hends k hk
  -- the payout stopped before its transfer, or it settled and sent
  rcases executePayout_settles hmap hends with
    ⟨hstill, hcounters, hrecip⟩ | ⟨grp', recipient, amount, hsettles⟩
  · refine ⟨0, Or.inl ⟨rfl, hledger.trans hstill⟩, fun htracked => ?_⟩
    obtain ⟨O, hO⟩ := hs.held g htracked
    have hcounters' := hcounters.trans
      (SameCounters.of_same (hsame (.grpBal g) (by simp)) (hsame (.grpPaid g) (by simp)))
    refine ⟨⟨O, hO.idle hcounters' (fun c a => hframe _ (by simp)) ?_ ?_ ?_⟩, ?_⟩
    · intro c hc
      rw [hsame _ (by simp)] at hc
      exact hrecip c hc
    · intro a ha
      rw [hframe _ (by simp)] at ha
      exact Or.inl ha
    · intro n hn
      rw [hcycle] at hn
      obtain rfl := Option.some.inj hn
      exact Or.inl ⟨_, cycleAt_of_group hgrp, Nat.le_succ _⟩
    · rw [hcounters'.balanceAt_eq, Int.add_zero]
  -- it sent the pool out of the account, and the second counter says so
  · obtain rfl : grp' = grp := by
      have hgrp' := hsettles.notes.group
      rw [hgrp] at hgrp'
      exact (Option.some.inj hgrp').symm
    obtain ⟨config, htoken, hsent⟩ := hsettles.sent
    have hne : recipient ≠ contractAddress := by
      rintro rfl
      exact hsettles.member (hs.outsider g (Or.inr (stored_of_read htoken)))
    refine ⟨-amount, Or.inr ⟨config, htoken, ?_⟩, fun htracked => ?_⟩
    · rw [← hledger] at hsent
      exact flow_of_transfer hne hsent
    · obtain ⟨O, hO⟩ := hs.held g htracked
      exact hO.paidOut (hs.order.balanced g _) (hs.registry.own g _ hgrp) hsettles
        (fun c a => hframe _ (by simp)) ((hsame _ (by simp)).trans hsettles.balance)
        (hsame _ (by simp)) (fun c => hsame _ (by simp)) (fun a => hframe _ (by simp)) hcycle

/-- A call that contributes to a group moves as much of its token as it adds to the
    balance. -/
theorem contribution_money (hs : Solvent s) (hc : Sparing s c) (h : c.body env s = .ok () t)
    (hto : contributesTo c = some g) :
    ∃ n, MovesBy s t g n ∧
      (Tracked s g → (∃ O, Held t g O) ∧ balanceAt t g = balanceAt s g + n) := by
  have hagree := Within.agree_ok (w := c.footprint) h
  obtain ⟨grp, hgrp, -, hfiled⟩ := contribution_filed hto h
  have hframe : ∀ k : Key, k.kind ∈ [Kind.grp, .grpPaid, .payRecip, .mbrProf] →
      t.persistent k = s.persistent k := by
    intro k hk
    refine hagree.persistent k ?_
    cases c with
    | contribute _ _ _ | contributeBatch _ _ _ | executeAutoContributions _
    | contributeWithProof _ _ _ =>
        exact Place.not_covered (g := k.group) (Place.spares_of_kinds rfl) k rfl hk
    | _ => cases hto
  by_cases hproof : ∃ m n, c = .contributeWithProof g m n
  · -- nothing is paid, so the group has no token and is not tracked
    obtain ⟨m, n, rfl⟩ := hproof
    refine ⟨0, Or.inl ⟨rfl, hagree.ledger not_false⟩, fun htracked => ?_⟩
    exact absurd rfl (away_of_tokenless hs.registry hc hgrp htracked)
  · obtain ⟨config, n, htoken, hbooked, hflow⟩ := contribution_booked hto
      (fun m n he => hproof ⟨m, n, he⟩) h
    refine ⟨n, Or.inr ⟨config, htoken, hflow⟩, fun htracked => ?_⟩
    obtain ⟨O, hO⟩ := hs.held g htracked
    obtain ⟨horder, hkept⟩ := inOrder_step hs.order h
    exact hO.booked hbooked (fun g' c' a hne => hfiled.elsewhere hne c' a)
      (fun c' a => hkept g c' a) (fun c' a => (horder.balanced g c').typed a)
      (hframe _ (by simp)) (fun c' => hframe _ (by simp)) (fun a => hframe _ (by simp))
      (cycleAt_congr (hframe _ (by simp)))

/-- **WHERE MONEY MOVES** for a group, its counters move with it. -/
theorem money_step (hs : Solvent s) (hc : Sparing s c) (h : c.body env s = .ok () t)
    (hg : contributesTo c = some g ∨ returnsTo c = some g) :
    ∃ n, MovesBy s t g n ∧
      (Tracked s g → (∃ O, Held t g O) ∧ balanceAt t g = balanceAt s g + n) := by
  rcases hg with hto | hfrom
  · exact contribution_money hs hc h hto
  have hagree := Within.agree_ok (w := c.footprint) h
  cases c with
  | executePayout g' =>
      obtain rfl := Option.some.inj hfrom
      -- whatever the payout says, the record it stores is advanced
      have hends : EndsIn (executePayout g') env s t := Or.inl ⟨(), h⟩
      obtain ⟨grp, recipient, amount, u, config, l, hp, rfl⟩ := executePayout_ok.mp h
      refine payment_money hs hp.group hends rfl (fun _ _ => rfl) ?_
      have hadv := Group.advanced_currentCycle (marked grp)
      simp [cycleAt, groupAt, paidState, hadv]
  | tick g' =>
      obtain rfl := Option.some.inj hfrom
      obtain ⟨grp, v, hgrp, -, -, ⟨-, rfl⟩ | ⟨-, hends⟩, rfl⟩ := tick_ok h
      -- the tick went on without a payout: only the cycle moved
      · refine ⟨0, Or.inl ⟨rfl, rfl⟩, fun htracked => ?_⟩
        obtain ⟨O, hO⟩ := hs.held g' htracked
        have hsame : SameCounters s (s.set (.grp g') (Codec.encode grp.advanced)) g' :=
          sameCounters_set ⟨by simp, by simp⟩
        refine ⟨⟨O, hO.idle hsame (by simp) (by simp) (fun a ha => Or.inl (by simpa using ha)) ?_⟩,
          by rw [hsame.balanceAt_eq, Int.add_zero]⟩
        intro n hn
        exact cycle_other hs h hn
      -- the tick paid: this is the payout once more
      · refine payment_money hs hgrp hends rfl (fun k hk => by simp [hk]) ?_
        simp [cycleAt, groupAt, Group.advanced_currentCycle]
  | requestRefund g' cycle m => exact hc.elim
  | emergencyWithdraw g' m =>
      obtain rfl := Option.some.inj hfrom
      -- a withdrawal takes out what the member paid in, if there is a token
      by_cases htracked : Tracked s g'
      · obtain ⟨O, hO⟩ := hs.held g' htracked
        obtain ⟨n, hmoves, hheld⟩ := hO.withdrawn hs.order hs.positive hc h
        exact ⟨n, hmoves, fun _ => hheld⟩
      · refine ⟨0, Or.inl ⟨rfl, ?_⟩, fun hs' => absurd hs' htracked⟩
        obtain ⟨grp, total, received, -, ⟨-, -, config, l, htoken, -⟩ | ⟨-, rfl⟩⟩ :=
          emergencyWithdraw_ok h
        · exact absurd (Or.inr (stored_of_read htoken)) htracked
        · rfl
  | voteDissolve g' m =>
      obtain rfl := Option.some.inj hfrom
      -- a sparing vote dissolves nobody's money
      refine ⟨0, Or.inl ⟨rfl, voteDissolve_idle hc h⟩, fun htracked => ?_⟩
      obtain ⟨O, hO⟩ := hs.held g' htracked
      have hsame : SameCounters s t g' :=
        SameCounters.of_same (hagree.persistent _ (by simp)) (hagree.persistent _ (by simp))
      refine ⟨⟨O, hO.idle hsame (fun c a => hagree.persistent _ (by simp)) ?_ ?_
        fun n hn => cycle_other hs h hn⟩, by rw [hsame.balanceAt_eq, Int.add_zero]⟩
      · intro c hnone
        rwa [hagree.persistent _ (by simp)] at hnone
      · intro a ha
        rw [hagree.persistent _ (by simp)] at ha
        exact Or.inl ha
  | claimCompletionReward m g' => exact absurd ⟨(), t, h⟩ (claim_refused hs.pools m)
  | _ => cases hfrom

/-- A transfer from somebody else does not lower the contract's holding. -/
theorem escrow_of_deposit {src dst tok : Address} {n : Int} {l : Ledger} (hsrc : src ≠ contractAddress)
    (h : Book.transfer s.ledger tok src dst n = some l) (tok' : Address) :
    escrow s tok' ≤ Book.holding l tok' contractAddress := by
  obtain ⟨token, -, hn, -⟩ := Book.transfer_isSome_iff.mp (Option.isSome_iff_exists.mpr ⟨l, h⟩)
  rw [Book.holding_transfer h]
  by_cases htok : tok' = tok
  · rw [if_pos htok, moved, if_neg hsrc.symm, htok, Int.sub_zero, escrow]
    by_cases hdst : contractAddress = dst
    · rw [if_pos hdst]
      omega
    · rw [if_neg hdst]
      omega
  · rw [if_neg htok]
    exact Int.le_refl _

/-- The fee of a new group comes from its creator. -/
theorem createGroup_escrow {creator tok : Address} {amount : Int} {duration maxMembers grace n : Nat}
    {order : PayoutOrder}
    (h : createGroup creator amount duration maxMembers tok grace order env s = .ok n t)
    (tok' : Address) : escrow s tok' ≤ escrow t tok' := by
  obtain ⟨hsigned, -, rounded, decimals, w, -, -, rfl, hfee⟩ := createGroup_steps h
  have hne : creator ≠ contractAddress := by
    rintro rfl
    exact env.contract_not_signer hsigned
  -- the fee is all that moves
  rcases onOption_ok.mp hfee with ⟨-, hnone⟩ | ⟨config, -, hcharge⟩
  · rw [← (pure_ok.mp hnone).2]
    exact Int.le_refl _
  rcases runIf_ok.mp hcharge with ⟨-, hsend⟩ | ⟨-, rfl⟩
  swap
  · exact Int.le_refl _
  rcases onOption_ok.mp hsend with ⟨-, hnone⟩ | ⟨treasury, -, htransfer⟩
  · rw [← (pure_ok.mp hnone).2]
    exact Int.le_refl _
  obtain ⟨-, l, hl, rfl⟩ := tokenTransfer_ok.mp htransfer
  exact escrow_of_deposit (s := s) hne hl tok'

/-- Calls that are not about a group's money. -/
theorem escrow_other (h : c.body env s = .ok () t) (hin : contributesTo c = none)
    (hout : returnsTo c = none) (tok : Address) : escrow s tok ≤ escrow t tok := by
  have hagree := Within.agree_ok (w := c.footprint) h
  have hstill : t.ledger = s.ledger → escrow s tok ≤ escrow t tok := by
    intro hledger
    rw [escrow, escrow, hledger]
  cases c with
  | createGroup creator amount duration maxMembers tok' grace order =>
      obtain ⟨n, hn⟩ := quietly_ok.mp h
      exact createGroup_escrow hn tok
  | contribute _ _ _ | contributeBatch _ _ _ | executeAutoContributions _
  | contributeWithProof _ _ _ => cases hin
  | executePayout _ | tick _ | requestRefund _ _ _ | emergencyWithdraw _ _ | voteDissolve _ _
  | claimCompletionReward _ _ => cases hout
  | _ => exact hstill (hagree.ledger not_false)

/-- The groups that are counted for a token after the step were counted before. -/
theorem counted_before (hs : Solvent s) (h : c.body env s = .ok () t) {tok : Address}
    (hg : lastId t < g ∨ ∃ config, tokenAt t g = some config ∧ config.tokenAddress = tok) :
    lastId s < g ∨ ∃ config, tokenAt s g = some config ∧ config.tokenAddress = tok := by
  have hlast := (grows_step hs.registry h).last
  by_cases hfresh : lastId s < g
  · exact Or.inl hfresh
  · rcases hg with hg | hg
    · omega
    · right
      rwa [tokenAt, readAt_congr (token_step h (by omega))] at hg

/-- A group counted under a token has one, or is not there yet. -/
theorem Tracked.of_counted {tok : Address}
    (hg : lastId s < g ∨ ∃ config, tokenAt s g = some config ∧ config.tokenAddress = tok) :
    Tracked s g := by
  rcases hg with hfresh | ⟨config, htoken, -⟩
  · exact Or.inl hfresh
  · exact Or.inr (stored_of_read htoken)

/-- A call that moves money does not change what money. -/
theorem money_token (h : c.body env s = .ok () t)
    (hg : contributesTo c = some g ∨ returnsTo c = some g) :
    t.persistent (.grpTok g) = s.persistent (.grpTok g) := by
  have hagree := Within.agree_ok (w := c.footprint) h
  refine hagree.persistent _ ?_
  cases c with
  | contribute _ _ _ | contributeBatch _ _ _ | executeAutoContributions _
  | contributeWithProof _ _ _ | executePayout _ | tick _ | requestRefund _ _ _
  | emergencyWithdraw _ _ | voteDissolve _ _ | claimCompletionReward _ _ => simp
  | _ =>
      rcases hg with hg | hg
      · cases hg
      · cases hg

/-- The group's share of the contract's holding moves by the same amount. -/
theorem MovesBy.escrow_eq {n : Int} (hmoves : MovesBy s t g n)
    (htoken : t.persistent (.grpTok g) = s.persistent (.grpTok g)) :
    groupEscrow t g - groupEscrow s g = n := by
  have hsame : tokenAt t g = tokenAt s g := readAt_congr htoken
  rcases hmoves with ⟨rfl, hledger⟩ | ⟨config, hconfig, hflow⟩
  · rw [groupEscrow_congr hsame hledger, Int.sub_self]
  · exact hflow.groupEscrow_eq hconfig (hsame.trans hconfig)

/-- The figure of every group moves by what was moved for it. -/
theorem balance_step (hs : Solvent s) (hc : Sparing s c) (h : c.body env s = .ok () t)
    (ht : Tracked t g) :
    (∃ O, Held t g O) ∧ balanceAt t g = balanceAt s g +
      if contributesTo c = some g ∨ returnsTo c = some g then groupEscrow t g - groupEscrow s g
      else 0 := by
  have hbefore := tracked_before hs.registry h ht
  by_cases hg : contributesTo c = some g ∨ returnsTo c = some g
  · rw [if_pos hg]
    obtain ⟨n, hmoves, hheld⟩ := money_step hs hc h hg
    obtain ⟨hO, hbalance⟩ := hheld hbefore
    refine ⟨hO, ?_⟩
    rw [hbalance, hmoves.escrow_eq (money_token h hg)]
  · rw [if_neg hg, Int.add_zero]
    exact held_other hs hc h ht (fun hin => hg (Or.inl hin)) fun hout => hg (Or.inr hout)

/-- A call that moves money moves it for one group. -/
theorem money_group (hc : ¬ (contributesTo c = none ∧ returnsTo c = none)) :
    ∃ g₀, (contributesTo c = some g₀ ∨ returnsTo c = some g₀) ∧
      ∀ g, g ≠ g₀ → contributesTo c ≠ some g ∧ returnsTo c ≠ some g := by
  cases c with
  | contribute g₀ _ _ | contributeBatch g₀ _ _ | executeAutoContributions g₀
  | contributeWithProof g₀ _ _ =>
      exact ⟨g₀, Or.inl rfl, fun g hne =>
        ⟨fun he => hne (Option.some.inj he).symm, fun he => by cases he⟩⟩
  | executePayout g₀ | tick g₀ | requestRefund g₀ _ _ | emergencyWithdraw g₀ _ | voteDissolve g₀ _
  | claimCompletionReward _ g₀ =>
      exact ⟨g₀, Or.inr rfl, fun g hne =>
        ⟨(fun he => by cases he), fun he => hne (Option.some.inj he).symm⟩⟩
  | _ => exact absurd ⟨rfl, rfl⟩ hc

/-- Other groups of the same token, before and after. -/
theorem covered_step (hs : Solvent s) (hc : Sparing s c) (h : c.body env s = .ok () t)
    (hpos : Positive t) {tok : Address} {G : Finset Nat}
    (hG : ∀ g ∈ G, lastId t < g ∨ ∃ config, tokenAt t g = some config ∧ config.tokenAddress = tok) :
    ∑ g ∈ G, balanceAt t g ≤ escrow t tok := by
  have hbefore : ∀ g ∈ G, _ := fun g hg => counted_before hs h (hG g hg)
  have hcovered := hs.covered tok G hbefore
  -- the groups of the sum are covered before the call
  by_cases hnone : contributesTo c = none ∧ returnsTo c = none
  · -- no group's money moves
    have hsame : ∑ g ∈ G, balanceAt t g = ∑ g ∈ G, balanceAt s g := by
      refine Finset.sum_congr rfl fun g hg => ?_
      refine (held_other hs hc h (Tracked.of_counted (hG g hg)) ?_ ?_).2
      · rw [hnone.1]
        exact (Option.some_ne_none g).symm
      · rw [hnone.2]
        exact (Option.some_ne_none g).symm
    rw [hsame]
    exact hcovered.trans (escrow_other h hnone.1 hnone.2 tok)
  · obtain ⟨g₀, hg₀, hothers⟩ := money_group hnone
    obtain ⟨n, hmoves, hheld⟩ := money_step hs hc h hg₀
    -- one group moves by `n`, the others stay
    have heach : ∀ g, Tracked t g → balanceAt t g = balanceAt s g + if g = g₀ then n else 0 := by
      intro g hg
      by_cases he : g = g₀
      · rw [if_pos he, he]
        exact (hheld (tracked_before hs.registry h (he ▸ hg))).2
      · rw [if_neg he, Int.add_zero]
        exact (held_other hs hc h hg (hothers g he).1 (hothers g he).2).2
    have hsum : ∀ G' : Finset Nat, (∀ g ∈ G', Tracked t g) → ∑ g ∈ G', balanceAt t g
        = (∑ g ∈ G', balanceAt s g) + if g₀ ∈ G' then n else 0 := by
      intro G' hG'
      rw [Finset.sum_congr rfl fun g hg => heach g (hG' g hg), Finset.sum_add_distrib,
        Finset.sum_ite_eq']
    have htracked : ∀ g ∈ G, Tracked t g := fun g hg => Tracked.of_counted (hG g hg)
    rcases hmoves with ⟨rfl, hledger⟩ | ⟨config, htoken, hflow⟩
    · rw [hsum G htracked, ite_self, Int.add_zero, escrow, hledger]
      exact hcovered
    · have hflow' := hflow tok
      by_cases htok : tok = config.tokenAddress
      · -- with the group itself counted in, what moved is on both sides
        rw [if_pos htok] at hflow'
        have hstored : t.persistent (.grpTok g₀) ≠ none := by
          rw [money_token h hg₀]
          exact stored_of_read htoken
        have hwith := hs.covered tok (insert g₀ G) (by
          intro g hg
          rcases Finset.mem_insert.mp hg with rfl | hg
          · exact Or.inr ⟨config, htoken, htok.symm⟩
          · exact hbefore g hg)
        have hafter := hsum (insert g₀ G) (by
          intro g hg
          rcases Finset.mem_insert.mp hg with rfl | hg
          · exact Or.inr hstored
          · exact htracked g hg)
        rw [if_pos (Finset.mem_insert_self g₀ G)] at hafter
        have hle : ∑ g ∈ G, balanceAt t g ≤ ∑ g ∈ insert g₀ G, balanceAt t g := by
          refine Finset.sum_le_sum_of_subset_of_nonneg (Finset.subset_insert g₀ G) ?_
          intro g hg hout
          obtain rfl := (Finset.mem_insert.mp hg).resolve_right hout
          obtain ⟨O, hO⟩ := (hheld (Or.inr (stored_of_read htoken))).1
          exact hO.nonneg hpos
        omega
      · -- a group of another token
        rw [if_neg htok, Int.add_zero] at hflow'
        have hout : g₀ ∉ G := by
          intro hmem
          rcases hbefore g₀ hmem with hfresh | ⟨config', htoken', rfl⟩
          · exact stored_of_read htoken (hs.issued g₀ hfresh)
          · rw [htoken] at htoken'
            rw [Option.some.inj htoken'] at htok
            exact htok rfl
        rw [hsum G htracked, if_neg hout, Int.add_zero, hflow']
        exact hcovered

/-- **ONE CALL**, sparing, keeps the contract solvent. -/
theorem solvent_step (hs : Solvent s) (hc : Sparing s c) (h : c.body env s = .ok () t) :
    Solvent t where
  registry := registry_step hs.registry h
  order := (inOrder_step hs.order h).1
  positive := positive_step hs.order hs.positive h
  pools := unfed_step hs.registry hs.pools h
  issued := issued_step hs.registry hs.issued h
  fresh _ hg := fresh_step hs h hg
  gathering _ _ hgrp hpending := gathering_step hs h hgrp hpending
  outsider _ hg := outsider_step hs h hg
  held _ hg := (balance_step hs hc h hg).1
  covered _ _ hG := covered_step hs hc h (positive_step hs.order hs.positive h) hG

end Step

/-! ## Runs -/

/-- What the members of the group pay in a step. -/
def received (g : Nat) (x : Step) (s : State) : Int :=
  match x with
  | .call _ c => if contributesTo c = some g then groupEscrow (apply x s) g - groupEscrow s g else 0
  | _ => 0

/-- A step that keeps the figure right: the call is sparing, if it goes through,
    and nobody but the contract takes tokens out of its account. -/
def SparingStep : Step → State → Prop
  | .call env c, s => Succeeds c.body env s → Sparing s c
  | .expire, _ => True
  | .external l, s => ∀ tok, escrow s tok ≤ Book.holding l tok contractAddress

/-- Nobody has contributed yet, to any group. -/
structure Opening (s : State) : Prop where
  registry : Registry s
  rosters : ∀ g, TypedAt MemberMap s.persistent (.grpMbrs g)
  issued : TokensIssued s
  pools : Unfed s
  outsider : ∀ g, s.persistent (.mbrProf g contractAddress) = none
  empty : ∀ k : Key, k.kind ∈ [Kind.contrib, .cycTotal, .cycCount, .grpBal, .grpPaid] →
    s.persistent k = none

section Runs

variable {s t : State} {g : Nat}

/-- Before anybody has contributed every balance is zero. -/
theorem Opening.balanceAt_eq (hs : Opening s) (g : Nat) : balanceAt s g = 0 := by
  have hbal := hs.empty (.grpBal g) (by simp)
  have hpaid := hs.empty (.grpPaid g) (by simp)
  rw [balanceAt, grpBalAt, grpPaidAt, (readAt_eq_none (typedAt_of_none hbal)).mpr hbal,
    (readAt_eq_none (typedAt_of_none hpaid)).mpr hpaid]
  rfl

/-- And the contract is solvent, with nothing held for anybody. -/
theorem Opening.solvent (hs : Opening s) : Solvent s := by
  have hbare : ∀ g, Bare g s := fun g c a => hs.empty _ (by simp)
  refine ⟨hs.registry, ?_, ?_, hs.pools, hs.issued, fun g _ => hbare g, fun g _ _ _ => hbare g,
    fun g _ => hs.outsider g, ?_, ?_⟩
  · exact inOrder_of_empty hs.rosters hbare (fun g c => hs.empty _ (by simp))
      fun g c => hs.empty _ (by simp)
  · intro g c a record hrecord
    rw [bare_contribAt (hbare g)] at hrecord
    cases hrecord
  · intro g _
    have hbal := hs.empty (.grpBal g) (by simp)
    have hpaid := hs.empty (.grpPaid g) (by simp)
    refine ⟨∅, ⟨typedAt_of_none hbal, typedAt_of_none hpaid⟩, ?_, fun p hp => ?_,
      fun n _ c a _ hrecord => absurd (hbare g c a) hrecord,
      fun c a _ _ hrecord => absurd (hbare g c a) hrecord, ?_⟩
    · rw [grpBalAt, grpPaidAt, (readAt_eq_none (typedAt_of_none hbal)).mpr hbal,
        (readAt_eq_none (typedAt_of_none hpaid)).mpr hpaid]
      decide
    · exact absurd hp (Finset.notMem_empty p)
    · rw [hs.balanceAt_eq, Finset.sum_empty]
  · intro tok G _
    rw [Finset.sum_eq_zero fun g _ => hs.balanceAt_eq g]
    exact Book.holding_nonneg

/-- What depends on the storage alone survives any ledger that holds as much. -/
theorem Solvent.congr (hs : Solvent s) (h : t.persistent = s.persistent)
    (hescrow : ∀ tok, escrow s tok ≤ escrow t tok) : Solvent t := by
  obtain ⟨persistent, temporary, ledger⟩ := s
  obtain ⟨persistent', temporary', ledger'⟩ := t
  obtain rfl : persistent' = persistent := h
  exact ⟨⟨hs.registry.own, hs.registry.below⟩, hs.order.congr rfl, hs.positive, hs.pools, hs.issued,
    hs.fresh, hs.gathering, hs.outsider,
    fun g hg => (hs.held g hg).imp fun O hO =>
      ⟨hO.typed, hO.fits, hO.records, hO.ahead, hO.unpaid, hO.balance⟩,
    fun tok G hG => (hs.covered tok G hG).trans (hescrow tok)⟩

/-- No call both contributes to a group and returns money from it. -/
theorem pays_one_way {c : Call} (h : contributesTo c = some g) : returnsTo c ≠ some g := by
  cases c with
  | contribute _ _ _ | contributeBatch _ _ _ | executeAutoContributions _
  | contributeWithProof _ _ _ => exact fun he => by cases he
  | _ => cases h

/-- **ONE STEP** of a sparing run: still solvent, and every figure has moved by
    what came in for its group less what went out. -/
theorem solvent_apply (x : Step) (hx : SparingStep x s) (hs : Solvent s) :
    Solvent (apply x s) ∧ (Tracked (apply x s) g → Tracked s g ∧
      balanceAt (apply x s) g = balanceAt s g + (received g x s - paidBack g x s)) := by
  cases x with
  | call env c =>
      rcases commit_eq_or c env s with ⟨t, ht, he⟩ | ⟨-, he⟩
      -- the call went through, or left everything as it was
      · have hspare := hx ⟨(), t, ht⟩
        have happly : apply (.call env c) s = t := he
        rw [happly]
        refine ⟨solvent_step hs hspare ht, fun htracked => ?_⟩
        refine ⟨tracked_before hs.registry ht htracked, ?_⟩
        rw [(balance_step hs hspare ht htracked).2]
        simp only [received, paidBack, outflow, happly]
        -- what came in is the change if the call contributes, what went out if it returns
        by_cases hin : contributesTo c = some g
        · rw [if_pos (Or.inl hin), if_pos hin, if_neg (pays_one_way hin), Int.sub_zero]
        · by_cases hout : returnsTo c = some g
          · rw [if_pos (Or.inr hout), if_neg hin, if_pos hout]
            omega
          · rw [if_neg (not_or.mpr ⟨hin, hout⟩), if_neg hin, if_neg hout, Int.sub_zero]
      · have happly : apply (.call env c) s = s := he
        rw [happly]
        refine ⟨hs, fun htracked => ⟨htracked, ?_⟩⟩
        simp only [received, paidBack, outflow, happly, Int.sub_self, ite_self, Int.add_zero]
  | expire =>
      exact ⟨hs.congr rfl fun _ => Int.le_refl _, fun htracked => ⟨htracked, (Int.add_zero _).symm⟩⟩
  | external l => exact ⟨hs.congr rfl hx, fun htracked => ⟨htracked, (Int.add_zero _).symm⟩⟩

/-- Along a sparing run. -/
theorem balance_run (hs : Opening s) {steps : List Step} (hrun : Along apply SparingStep steps s) :
    Solvent (run steps s) ∧ (Tracked (run steps s) g → balanceAt (run steps s) g
      = total apply (received g) steps s - total apply (paidBack g) steps s) := by
  have hend := total_invariant (f := fun x t => received g x t - paidBack g x t)
    (I := fun t n => Solvent t ∧ (Tracked t g → balanceAt t g = n))
    (fun x t n hx ht => ?_) (n := 0) ⟨hs.solvent, fun _ => hs.balanceAt_eq g⟩ hrun
  · rwa [total_sub, Int.zero_add] at hend
  · obtain ⟨hsolvent, hbalance⟩ := solvent_apply (g := g) x hx ht.1
    refine ⟨hsolvent, fun htracked => ?_⟩
    obtain ⟨hbefore, hmoved⟩ := hbalance htracked
    rw [hmoved, ht.2 hbefore]

end Runs

/-- **THE BALANCE IS THE MONEY HELD**, as long as every step is sparing: along
    every run from a state without contributions, what `get_group_balance` says
    of a group with a token is what its members paid less what was sent out for
    it, is not negative, and over all groups of a token stays within the
    contract's holding of it. -/
theorem balance_is_money_held (s : State) (hs : Opening s) (steps : List Step)
    (hrun : Along apply SparingStep steps s) :
    (∀ g grp config, groupAt (run steps s) g = some grp → tokenAt (run steps s) g = some config →
      (∀ env, getGroupBalance g env (run steps s)
        = .ok (total apply (received g) steps s - total apply (paidBack g) steps s) (run steps s)) ∧
      0 ≤ total apply (received g) steps s - total apply (paidBack g) steps s) ∧
    ∀ (tok : Address) (G : Finset Nat) (b : Nat → Int),
      (∀ g ∈ G, ∃ config, tokenAt (run steps s) g = some config ∧ config.tokenAddress = tok) →
      (∀ g ∈ G, ∃ env, getGroupBalance g env (run steps s) = .ok (b g) (run steps s)) →
      ∑ g ∈ G, b g ≤ escrow (run steps s) tok := by
  constructor
  -- the answer of the contract is the balance, and the balance is the flow of money
  · intro g grp config hgrp htoken
    obtain ⟨hsolvent, hbalance⟩ := balance_run (g := g) hs hrun
    have htracked : Tracked (run steps s) g := Or.inr (stored_of_read htoken)
    obtain ⟨O, hO⟩ := hsolvent.held g htracked
    rw [← hbalance htracked]
    exact ⟨hO.answer hsolvent.positive (stored_of_read hgrp), hO.nonneg hsolvent.positive⟩
  -- the answers add up to no more than the holding
  · intro tok G b hG hb
    obtain ⟨hsolvent, -⟩ := balance_run (g := 0) hs hrun
    refine le_of_eq_of_le (Finset.sum_congr rfl fun g hg => ?_)
      (hsolvent.covered tok G fun g hg => Or.inr (hG g hg))
    obtain ⟨config, htoken, -⟩ := hG g hg
    obtain ⟨O, hO⟩ := hsolvent.held g (Or.inr (stored_of_read htoken))
    obtain ⟨env, henv⟩ := hb g hg
    have hgrp : (run steps s).persistent (.grp g) ≠ none := by
      have hexists := henv
      simp only [getGroupBalance, has_bind_ok, failIf_bind_ok] at hexists
      simpa using hexists.1
    have hanswer := (hO.answer hsolvent.positive hgrp env).symm.trans henv
    injection hanswer with hvalue
    exact hvalue.symm

/-! The pair again. -/

/-- The storage of the example run is one nobody has contributed to. -/
theorem fundedOpen_opening : Opening fundedOpen where
  registry := fundedOpen_registry
  rosters _ := typedAt_of_none rfl
  issued g hg := by
    have hne : g ≠ 1 := by
      have hlast : lastId fundedOpen = 1 := rfl
      omega
    simp [fundedOpen, hne, deployed]
  pools := fundedOpen_unfed
  outsider _ := rfl
  empty k hk := by
    cases k with
    | contrib _ _ _ | cycTotal _ _ | cycCount _ _ | grpBal _ | grpPaid _ => rfl
    | _ => simp at hk

/-- The first member pays and takes it back. -/
def paysAndTakesBack : List Step := firstPays ++ [.call trioEnv (.requestRefund 1 0 ⟨1⟩)]

/-- **COUNTED TWICE**: `100` came in, `100` went out, and the balance says `100`. -/
theorem refund_stays_in_balance :
    Opening fundedOpen ∧ total apply (received 1) paysAndTakesBack fundedOpen = 100 ∧
      total apply (paidBack 1) paysAndTakesBack fundedOpen = 100 ∧
      getGroupBalance 1 trioEnv (run paysAndTakesBack fundedOpen)
        = .ok 100 (run paysAndTakesBack fundedOpen) :=
  ⟨fundedOpen_opening, rfl, rfl, rfl⟩

/-- Both members pay, and the first is paid. -/
def wholeCycle : List Step :=
  firstPays ++ [.call trioEnv (.contribute 1 ⟨2⟩ 100), .call trioEnv (.executePayout 1)]

/-- Its calls are all sparing. -/
theorem firstPays_sparing : Along apply SparingStep firstPays fundedOpen := by
  refine ⟨fun _ => trivial, fun _ => trivial, fun _ => trivial, ?_, fun _ => trivial, trivial⟩
  intro tok
  by_cases htok : tok = ⟨9⟩
  · rw [htok]
    decide
  · refine le_of_eq (Eq.trans (b := 0) ?_ ?_)
    · show Book.holding fundedOpen.ledger tok contractAddress = 0
      simp [Book.holding, fundedOpen, deployed, htok]
    · simp [Book.holding, htok]

/-- The theorem for a pair that pays and is paid. -/
theorem balance_is_money_held_instance :
    Opening fundedOpen ∧ Along apply SparingStep wholeCycle fundedOpen ∧
      getGroupBalance 1 trioEnv (run wholeCycle fundedOpen)
        = .ok (total apply (received 1) wholeCycle fundedOpen
          - total apply (paidBack 1) wholeCycle fundedOpen) (run wholeCycle fundedOpen) ∧
      total apply (received 1) wholeCycle fundedOpen = 200 ∧
      total apply (paidBack 1) wholeCycle fundedOpen = 200 := by
  have hrun : Along apply SparingStep wholeCycle fundedOpen :=
    (along_append apply _ firstPays _ fundedOpen).mpr
      ⟨firstPays_sparing, fun _ => trivial, fun _ => trivial, trivial⟩
  obtain ⟨grp, hgrp⟩ : ∃ grp, groupAt (run wholeCycle fundedOpen) 1 = some grp := ⟨_, rfl⟩
  exact ⟨fundedOpen_opening, hrun,
    ((balance_is_money_held fundedOpen fundedOpen_opening wholeCycle hrun).1 1 grp ⟨⟨9⟩, 7⟩ hgrp
      rfl).1 trioEnv, rfl, rfl⟩

end SaveBalance
