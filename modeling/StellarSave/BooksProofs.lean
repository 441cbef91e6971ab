import StellarSave.RatingProofs
import StellarSave.RefundGateProofs
import StellarSave.RewardProofs

/-! # The books — entries that are made once and never touched again

    Contributions, refunds, payouts, ratings, claimed rewards and votes to
    dissolve are entries that a reader may take for history: no call overwrites
    one or takes one away.  Each writer looks first whether its entry is there,
    and nobody else writes or deletes the kind.

    The payout record is the one that is NOT looked for.  The executor asks for
    the recipient of the cycle, and writes both together; so what protects the
    record is that no record stands without its recipient. -/

namespace SaveBooks

open HostProg Footprint TokenLedger SaveData SaveContribution SavePayout SaveRefund SaveMembership
open SaveLifecycle SaveAdmin SaveCall SaveStatus SaveFiling SaveRefundGate SaveRating Trace
open SaveRoster (trioEnv)
open SaveRotation (fundedOpen)
open SaveReward (firstPays)
open SaveCompletion (fundedOpen_inOrder)

/-- The kinds of entry that are made once. -/
def enteredKinds : List Kind := [.contrib, .refund, .payout, .payRecip, .grpRate, .mbrRwdC, .cDisVote]

/-- The entry, if it was there, is as it was. -/
def Stands (s t : State) (k : Key) : Prop :=
  s.persistent k ≠ none → t.persistent k = s.persistent k

/-- The books are in order, and no payout record stands without its recipient. -/
structure Sealed (s : State) : Prop where
  order : InOrder s
  named : ∀ g c, s.persistent (.payout g c) ≠ none → s.persistent (.payRecip g c) ≠ none

section Frames

variable {env : Env} {s t v : State} {c : Call} {g : Nat} {k : Key} {u : Unit}

theorem Stands.of_same (h : t.persistent k = s.persistent k) : Stands s t k := fun _ => h

theorem Stands.trans (h : Stands s v k) (h' : Stands v t k) : Stands s t k := by
  intro hs
  have hv := h hs
  exact (h' (hv ▸ hs)).trans hv

/-- An entry put where there was none. -/
theorem Stands.of_put {k' : Key} {val : Val} (hfree : s.persistent k' = none) :
    Stands s (s.set k' val) k := by
  intro hs
  have hne : k ≠ k' := by
    rintro rfl
    exact hs hfree
  rw [HostState.set_persistent, if_neg hne]

theorem Stands.set_other {k' : Key} {val : Val} (h : Stands s t k) (hne : k ≠ k') :
    Stands s (t.set k' val) k := by
  intro hs
  rw [HostState.set_persistent, if_neg hne]
  exact h hs

/-- An entered key is none of another kind. -/
theorem ne_of_entered {k' : Key} (hk : k.kind ∈ enteredKinds) (hk' : k'.kind ∉ enteredKinds) :
    k ≠ k' := by
  rintro rfl
  exact hk' hk

/-- What a call's families do not reach among the entered kinds. -/
theorem stands_of_families {ps : List Place} {locks moves : Prop} {written : List Kind}
    (hagree : Agree (scope ps locks moves) s t)
    (hps : (ps.all fun p => p.kind ∉ enteredKinds.filter (· ∉ written)) = true)
    (hk : k.kind ∈ enteredKinds) (hkind : k.kind ∉ written) : Stands s t k := by
  refine .of_same (hagree.persistent k (Place.not_covered (Place.spares_of_kinds hps) k rfl ?_))
  exact List.mem_filter.mpr ⟨hk, decide_eq_true hkind⟩

/-! ## The writers look first -/

theorem requestRefund_stands {cycle : Nat} {caller : Address} {out : RefundRecord}
    (h : requestRefund g cycle caller env s = .ok out t) : Stands s t k := by
  obtain ⟨-, grp, record, config, l, hopen, -, -, rfl⟩ := requestRefund_ok.mp h
  exact Stands.of_put (s := s) hopen.once

theorem refundOnDissolution_stands {cycle time : Nat} {tok member : Address}
    (h : refundOnDissolution g cycle tok time member env s = .ok u t) : Stands s t k := by
  rcases refundOnDissolution_ok h with rfl | ⟨record, l, -, hfree, -, rfl⟩
  · exact .of_same rfl
  · exact Stands.of_put (s := s) hfree

/-- A vote is cast once, and the sweep of the last one refunds once. -/
theorem voteDissolve_stands {caller : Address} (hk : k.kind ∈ enteredKinds)
    (h : voteDissolve g caller env s = .ok u t) : Stands s t k := by
  have hfresh := (voteDissolve_open h).fresh
  have hvoted : ∀ n, Stands s (voted s g caller n) k :=
    fun n => (Stands.of_put hfresh).set_other (ne_of_entered hk (by simp [enteredKinds]))
  obtain ⟨grp, -, -, ⟨-, config, -, hloop⟩ | ⟨-, rfl⟩⟩ := voteDissolve_ok h
  swap
  · exact hvoted _
  refine (hvoted (dissolveVotes s g)).trans ?_
  refine forEach_invariant (I := fun v => Stands (voted s g caller (dissolveVotes s g)) v k) ?_ ?_ hloop
  · intro a _ v w hv hstep
    exact hv.trans (refundOnDissolution_stands hstep)
  · -- the status and the record of the group are no entries of these kinds
    exact ((Stands.of_same rfl).set_other (ne_of_entered hk (by simp [enteredKinds]))).set_other
      (ne_of_entered hk (by simp [enteredKinds]))

theorem rateGroup_stands {caller : Address} {stars : Nat} {comment : String}
    (hk : k.kind ∈ enteredKinds) (h : rateGroup caller g stars comment env s = .ok u t) :
    Stands s t k := by
  obtain ⟨-, hfree, -, -, rfl⟩ := rateGroup_ok h
  exact (Stands.of_put hfree).set_other (ne_of_entered hk (by simp [enteredKinds]))

theorem claimCompletionReward_stands {member : Address}
    (h : claimCompletionReward member g env s = .ok u t) : Stands s t k := by
  simp only [claimCompletionReward, requireAuth_bind_ok, getOr_bind_ok, failIf_bind_ok,
    has_bind_ok] at h
  obtain ⟨-, grp, -, -, -, hclaimed, h⟩ := h
  obtain ⟨⟨⟩, v, hcheck, h₁⟩ := bind_ok.mp h
  -- looking for a contribution to every cycle only reads
  obtain rfl := Within.eq_of_ok hcheck
  have hfree : v.persistent (.mbrRwdC g member) = none := by simpa using hclaimed
  simp at h₁
  obtain ⟨-, -, ⟨-, rfl⟩ | ⟨config, -, l, -, rfl⟩⟩ := h₁
  · exact Stands.of_put hfree
  · exact Stands.of_put (s := v) hfree

/-- What a payout leaves of the payouts of its own group. -/
theorem executePayout_payouts (hs : Sealed s) (h : EndsIn (executePayout g) env s v) (c : Nat) :
    Stands s v (.payout g c) ∧ Stands s v (.payRecip g c) ∧
      (v.persistent (.payout g c) ≠ none → v.persistent (.payRecip g c) ≠ none) := by
  rcases executePayout_notes (hs.order.rosters g) h with hnot | ⟨grp, recipient, amount, hpays⟩
  · refine ⟨.of_same (hnot.payout c), .of_same (hnot.payRecip c), ?_⟩
    rw [hnot.payout, hnot.payRecip]
    exact hs.named g c
  · obtain ⟨record, hrecord⟩ := hpays.payout
    by_cases hc : c = grp.currentCycle
    · -- the cycle that is noted had no recipient, and so no record either
      subst hc
      have hfree : s.persistent (.payout g grp.currentCycle) = none := by
        by_contra hthere
        exact hs.named g _ hthere hpays.unpaid
      refine ⟨fun hthere => absurd hfree hthere, fun hthere => absurd hpays.unpaid hthere, fun _ => ?_⟩
      rw [hpays.payRecip, if_pos rfl]
      exact Option.some_ne_none _
    · have hsame : v.persistent (.payout g c) = s.persistent (.payout g c) := by
        rw [hrecord, if_neg hc]
      have hsame' : v.persistent (.payRecip g c) = s.persistent (.payRecip g c) := by
        rw [hpays.payRecip, if_neg hc]
      refine ⟨.of_same hsame, .of_same hsame', ?_⟩
      rw [hsame, hsame']
      exact hs.named g c

/-- **A PAYOUT, HOWEVER IT ENDS**, overwrites nothing, and notes a recipient beside every record. -/
theorem executePayout_stands (hs : Sealed s) (h : EndsIn (executePayout g) env s v) :
    (∀ k : Key, k.kind ∈ enteredKinds → Stands s v k) ∧
      ∀ g' c, v.persistent (.payout g' c) ≠ none → v.persistent (.payRecip g' c) ≠ none := by
  -- a payout writes to its own group, whether it ends well or not
  have hagree : Agree (scope (payoutPlaces g) True True) s v := by
    rcases h with ⟨x, h⟩ | ⟨e, h⟩
    · exact Within.agree_ok h
    · exact Within.agree_err h
  have helse : ∀ g' c, g' ≠ g → v.persistent (.payout g' c) = s.persistent (.payout g' c) ∧
      v.persistent (.payRecip g' c) = s.persistent (.payRecip g' c) := by
    intro g' c hg
    exact ⟨hagree.persistent _ (by simp [hg]), hagree.persistent _ (by simp [hg])⟩
  constructor
  -- of what it may write the two entries of the cycle are written once
  · intro k hk
    by_cases hkind : k.kind ∈ [Kind.payout, .payRecip]
    swap
    · exact stands_of_families hagree rfl hk hkind
    cases k with
    | payout g' c =>
        by_cases hg : g' = g
        · exact hg ▸ (executePayout_payouts hs h c).1
        · exact .of_same (helse g' c hg).1
    | payRecip g' c =>
        by_cases hg : g' = g
        · exact hg ▸ (executePayout_payouts hs h c).2.1
        · exact .of_same (helse g' c hg).2
    | _ => simp at hkind
  · intro g' c
    by_cases hg : g' = g
    · exact hg ▸ (executePayout_payouts hs h c).2.2
    · rw [(helse g' c hg).1, (helse g' c hg).2]
      exact hs.named g' c

/-- The tick saves the record of the group over whatever the payout left. -/
theorem tick_stands (hs : Sealed s) (h : tick g env s = .ok u t) :
    (∀ k : Key, k.kind ∈ enteredKinds → Stands s t k) ∧
      ∀ g' c, t.persistent (.payout g' c) ≠ none → t.persistent (.payRecip g' c) ≠ none := by
  obtain ⟨grp, v, -, -, -, hpay, rfl⟩ := tick_ok h
  have hv : (∀ k : Key, k.kind ∈ enteredKinds → Stands s v k) ∧
      ∀ g' c, v.persistent (.payout g' c) ≠ none → v.persistent (.payRecip g' c) ≠ none := by
    rcases hpay with ⟨-, rfl⟩ | ⟨-, hends⟩
    · exact ⟨fun k _ => .of_same rfl, hs.named⟩
    · exact executePayout_stands hs hends
  refine ⟨fun k hk => (hv.1 k hk).set_other (ne_of_entered hk (by simp [enteredKinds])), ?_⟩
  simpa using hv.2

/-! ## One call, and every run -/

/-- Everything else leaves the payouts alone. -/
theorem named_of_frame (hs : Sealed s)
    (hframe : ∀ k : Key, k.kind ∈ [Kind.payout, .payRecip] → t.persistent k = s.persistent k)
    (g c : Nat) (h : t.persistent (.payout g c) ≠ none) : t.persistent (.payRecip g c) ≠ none := by
  rw [hframe _ (by simp)] at h ⊢
  exact hs.named g c h

/-- **NOTHING IS WRITTEN TWICE** by any call that ends well. -/
theorem entered_step (hs : Sealed s) (h : c.body env s = .ok () t) :
    (∀ k : Key, k.kind ∈ enteredKinds → Stands s t k) ∧ Sealed t := by
  have hagree := Within.agree_ok (w := c.footprint) h
  obtain ⟨horder, hcontrib⟩ := inOrder_step hs.order h
  -- contributions are filed once by every call; the rest is for each call to say
  suffices hrest : (∀ k : Key, k.kind ∈ enteredKinds → k.kind ∉ [Kind.contrib] → Stands s t k) ∧
      ∀ g c, t.persistent (.payout g c) ≠ none → t.persistent (.payRecip g c) ≠ none by
    refine ⟨fun k hk => ?_, horder, hrest.2⟩
    by_cases hkind : k.kind ∈ [Kind.contrib]
    · cases k with
      | contrib g cycle a => exact hcontrib g cycle a
      | _ => simp at hkind
    · exact hrest.1 k hk hkind
  cases c with
  | executePayout g =>
      obtain ⟨hstands, hnamed⟩ := executePayout_stands hs (Or.inl ⟨(), h⟩)
      exact ⟨fun k hk _ => hstands k hk, hnamed⟩
  | tick g =>
      obtain ⟨hstands, hnamed⟩ := tick_stands hs h
      exact ⟨fun k hk _ => hstands k hk, hnamed⟩
  | requestRefund g cycle a =>
      obtain ⟨out, hout⟩ := quietly_ok.mp h
      exact ⟨fun k _ _ => requestRefund_stands hout, named_of_frame hs fun k hk =>
        hagree.persistent k (Place.not_covered (Place.spares_of_kinds rfl) k rfl hk)⟩
  | voteDissolve g a =>
      exact ⟨fun k hk _ => voteDissolve_stands hk h, named_of_frame hs fun k hk =>
        hagree.persistent k (Place.not_covered (Place.spares_of_kinds rfl) k rfl hk)⟩
  | rateGroup a g stars comment =>
      exact ⟨fun k hk _ => rateGroup_stands hk h, named_of_frame hs fun k hk =>
        hagree.persistent k (Place.not_covered (Place.spares_of_kinds rfl) k rfl hk)⟩
  | claimCompletionReward a g =>
      exact ⟨fun k _ _ => claimCompletionReward_stands h, named_of_frame hs fun k hk =>
        hagree.persistent k (Place.not_covered (Place.spares_of_kinds rfl) k rfl hk)⟩
  | _ =>
      exact ⟨fun k hk hkind => stands_of_families hagree rfl hk hkind, named_of_frame hs fun k hk =>
        hagree.persistent k (Place.not_covered (Place.spares_of_kinds rfl) k rfl hk)⟩

theorem entered_apply (x : Step) (hs : Sealed s) :
    (∀ k : Key, k.kind ∈ enteredKinds → Stands s (apply x s) k) ∧ Sealed (apply x s) := by
  cases x with
  | call env c =>
      rcases commit_eq_or c env s with ⟨t, ht, he⟩ | ⟨-, he⟩
      · rw [show apply (.call env c) s = t from he]
        exact entered_step hs ht
      · rw [show apply (.call env c) s = s from he]
        exact ⟨fun k _ => .of_same rfl, hs⟩
  | expire => exact ⟨fun k _ => .of_same rfl, hs.order.congr rfl, hs.named⟩
  | external l => exact ⟨fun k _ => .of_same rfl, hs.order.congr rfl, hs.named⟩

end Frames

/-- **THE BOOKS ONLY GROW**: from any state with its books in order, an entry of one of these
    kinds that is there is there with the same value after every run, whoever calls what in
    which order and however the calls end; and every payout record stands beside its
    recipient. -/
theorem books_only_grow (s : State) (hs : Sealed s) (steps : List Step) :
    (∀ k : Key, k.kind ∈ enteredKinds → s.persistent k ≠ none →
      (run steps s).persistent k = s.persistent k) ∧
      ∀ g c, (run steps s).persistent (.payout g c) ≠ none →
        (run steps s).persistent (.payRecip g c) ≠ none := by
  have hrun : Sealed (run steps s) ∧ ∀ k : Key, k.kind ∈ enteredKinds → Stands s (run steps s) k := by
    refine exec_invariant_always (I := fun t => Sealed t ∧
      ∀ k : Key, k.kind ∈ enteredKinds → Stands s t k) ?_ ⟨hs, fun k _ => .of_same rfl⟩ steps
    rintro x t ⟨ht, hstands⟩
    obtain ⟨hkept, hnext⟩ := entered_apply x ht
    exact ⟨hnext, fun k hk => (hstands k hk).trans (hkept k hk)⟩
  exact ⟨fun k hk hthere => hrun.2 k hk hthere, hrun.1.named⟩

/-! The pair again: the first member pays, then the second, and the cycle is paid out. -/

theorem fundedOpen_sealed : Sealed fundedOpen := ⟨fundedOpen_inOrder, fun _ _ h => absurd rfl h⟩

theorem firstPays_sealed : Sealed (run firstPays fundedOpen) :=
  exec_invariant_always (I := Sealed) (fun x _ hs => (entered_apply x hs).2) fundedOpen_sealed
    firstPays

/-- The theorem for the first contribution of the pair. -/
theorem books_only_grow_instance :
    Sealed (run firstPays fundedOpen) ∧
      (run firstPays fundedOpen).persistent (.contrib 1 0 ⟨1⟩) ≠ none ∧
      (run [.call trioEnv (.contribute 1 ⟨2⟩ 100), .call trioEnv (.executePayout 1)]
          (run firstPays fundedOpen)).persistent (.contrib 1 0 ⟨1⟩) =
        (run firstPays fundedOpen).persistent (.contrib 1 0 ⟨1⟩) := by
  have hthere : (run firstPays fundedOpen).persistent (.contrib 1 0 ⟨1⟩) ≠ none :=
    Option.isSome_iff_ne_none.mp (by decide +kernel)
  exact ⟨firstPays_sealed, hthere, (books_only_grow _ firstPays_sealed
    [.call trioEnv (.contribute 1 ⟨2⟩ 100), .call trioEnv (.executePayout 1)]).1
    (.contrib 1 0 ⟨1⟩) (by simp [enteredKinds]) hthere⟩

end SaveBooks
