import StellarSave.BackingProofs
import StellarSave.ReentryProofs

/-! # Callbacks — what a nest of calls can and cannot do

    Three kinds of entry are written once and never again: contribution
    records, refund records and payout recipients.  Every entry point checks
    that the entry is absent and writes it BEFORE the token call, so whatever
    the token does in between, no entry is written twice (`Grown`).

    The group record is another matter.  `execute_payout` stores its own copy
    of the record after the token call, to release `payout_in_progress`, and
    with it every field as it was before. -/

namespace SaveCallback

open HostProg Footprint Handover TokenLedger SaveData SaveContribution SavePayout SaveRefund
open SaveMembership SaveLifecycle SaveAdmin SaveCall SaveStatus SaveReentry SaveBacking

/-! ## The entries that are written once -/

/-- Their kinds. -/
def onceKinds : List Kind := [.contrib, .refund, .payRecip]

/-- Their keys. -/
def Once (k : Key) : Prop := k.kind ∈ onceKinds

/-- Between `a` and `b` such entries were only added, each with its note. -/
abbrev Written (a b : World) : Prop := Grown (fun s : State => s.persistent) Once a b

/-- One such entry was added. -/
abbrev Added (k : Key) (s t : State) : Prop := FirstWrite (fun s : State => s.persistent) Once k s t

section Once

variable {α : Type} {env : Env} {s t u : State} {g cycle ts : Nat} {member : Address}
  {amount : Int} {k : Key} {a b : World} {x : Tokens}

/-- A scope without these kinds. -/
theorem not_once {ps : List Place} {locks moves : Prop}
    (h : (ps.all fun p => p.kind ∉ onceKinds) = true) (k : Key) (hk : Once k) :
    ¬ (scope ps locks moves).persistent k :=
  Place.not_covered (Place.spares_of_kinds h) k rfl hk

/-- A program whose scope has none of the keys written once writes none of them. -/
theorem Written.of_agree {w : Scope Key} (hw : ∀ k, Once k → ¬ w.persistent k) (js : List Key)
    (h : Agree w s t) : Written (s, js) (t, js) :=
  Grown.of_frame rfl fun k hk => h.persistent k (hw k hk)

/-- A program that may touch none of them. -/
theorem keeps_of_within {w : Scope Key} {m : SaveM α} [Within w m]
    (hw : ∀ k, Once k → ¬ w.persistent k) : Keeps Written (lift m) := by
  intro env a v b h
  obtain ⟨t, ht, rfl⟩ := lift_ok.mp h
  exact Written.of_agree hw a.2 (Within.agree_ok ht)

/-- In particular one that only reads. -/
theorem keeps_of_readOnly {m : SaveM α} [Within Scope.nothing m] : Keeps Written (lift m) :=
  keeps_of_within (w := Scope.nothing) fun _ _ => id

/-- What a stretch adds, it adds after one that wrote no such key. -/
theorem Added.after (h : Added k t u) (hst : ∀ k, Once k → t.persistent k = s.persistent k) :
    Added k s u where
  watched := h.watched
  fresh := (hst k h.watched).symm.trans h.fresh
  present := h.present
  frame k' hk' hne := (h.frame k' hk' hne).trans (hst k' hk')

/-- A first write of such a key adds it. -/
theorem set_added (v : Val) (hk : Once k) (hfree : s.persistent k = none) :
    Added k s (s.set k v) where
  watched := hk
  fresh := hfree
  present := by simp
  frame k' _ hne := by simp [hne]

/-- A record is added where there was none. -/
theorem recorded_added (hfree : s.persistent (.contrib g cycle member) = none) :
    Added (.contrib g cycle member) s (recorded s g cycle member amount ts) where
  watched := by simp [Once, onceKinds]
  fresh := hfree
  present := by simp [recorded]
  frame k hk hne := by
    cases k <;> simp_all [recorded, Once, onceKinds]

/-- A program that adds one entry, its note, and the rest. -/
theorem keeps_noting {β : Type} {m : SaveM α} {k : α → Key} {f : α → CallbackM β}
    (hm : ∀ env s v t, m env s = .ok v t → Added (k v) s t) (hf : ∀ v, Keeps Written (f v)) :
    Keeps Written (do
      let v ← lift m
      note [k v]
      f v) := by
  intro env a w b h
  obtain ⟨v, t, ht, hrest⟩ := lift_bind_ok.mp h
  exact trans_of Written ⟨_, (hm env a.1 v t ht).adds a.2⟩ (hf v env _ w b hrest)

end Once

/-! ## What is added before each token call -/

section Before

variable {env : Env} {s t : State} {g cycle time : Nat} {member caller : Address} {amount : Int}

/-- `contribute` has written the record before the token is called. -/
theorem contributeBefore_added {sent : Address × Nat}
    (h : contributeBefore g member amount env s = .ok sent t) :
    Added (.contrib g sent.2 member) s t := by
  simp [contributeBefore, loadTokenOrRelease] at h
  obtain ⟨-, grp, -, -, -, -, -, -, -, -, config, -, ⟨hfree, -⟩, rfl, rfl⟩ := h
  exact Added.after (t := s.tempSet .guard (Codec.encode (U64.mk 1))) (recorded_added hfree)
    fun _ _ => rfl

/-- So has a contribution with a proof. -/
theorem contributeWithProofBefore_added
    (h : contributeWithProofBefore g member amount env s = .ok cycle t) :
    Added (.contrib g cycle member) s t := by
  simp [contributeWithProofBefore] at h
  obtain ⟨-, grp, -, -, -, -, ⟨-, -, -, ⟨hfree, -⟩, -, rfl, rfl⟩ |
    ⟨-, ⟨hfree, -⟩, -, rfl, rfl⟩⟩ := h
  · exact recorded_added hfree
  · exact recorded_added hfree

/-- The collection has, for a member that is due, and does nothing for another. -/
theorem autoContributeBefore_added {tok : Address} {due : Bool}
    (h : autoContributeBefore g cycle tok amount time member env s = .ok due t) :
    (due = false ∧ s = t) ∨ (due = true ∧ Added (.contrib g cycle member) s t) := by
  simp [autoContributeBefore] at h
  obtain ⟨-, ⟨-, hdue, hs⟩ | ⟨⟨-, hfree⟩, held, -, ⟨-, hdue, hs⟩ | ⟨-, allowed, -, ⟨-, hdue, hs⟩ |
    ⟨-, -, hdue, rfl⟩⟩⟩⟩ := h
  · exact Or.inl ⟨hdue, hs⟩
  · exact Or.inl ⟨hdue, hs⟩
  · exact Or.inl ⟨hdue, hs⟩
  · exact Or.inr ⟨hdue, recorded_added hfree⟩

/-- A refund has its record by then. -/
theorem requestRefundBefore_added {sent : Address × RefundRecord}
    (h : requestRefundBefore g cycle caller env s = .ok sent t) :
    Added (.refund g cycle sent.2.member) s t := by
  simp [requestRefundBefore] at h
  obtain ⟨-, grp, -, -, record, -, -, hfree, -, -, config, -, rfl, rfl⟩ := h
  exact set_added _ (by simp [Once, onceKinds]) hfree

/-- So has the refund of a dissolution, if anything is to be refunded. -/
theorem refundOnDissolutionBefore_added {sent : Option Int}
    (h : refundOnDissolutionBefore g cycle time member env s = .ok sent t) :
    (sent = none ∧ s = t) ∨ ∃ n, sent = some n ∧ Added (.refund g cycle member) s t := by
  simp [refundOnDissolutionBefore] at h
  obtain ⟨-, ⟨-, hsent, hs⟩ | ⟨position, -, -, ⟨-, hsent, hs⟩ | ⟨-, -, ⟨-, hsent, hs⟩ |
    ⟨record, -, ⟨hfree, rfl, rfl⟩ | ⟨-, hsent, hs⟩⟩⟩⟩⟩ := h
  · exact Or.inl ⟨hsent.symm, hs⟩
  · exact Or.inl ⟨hsent.symm, hs⟩
  · exact Or.inl ⟨hsent.symm, hs⟩
  · exact Or.inr ⟨_, rfl, set_added _ (by simp [Once, onceKinds]) hfree⟩
  · exact Or.inl ⟨hsent.symm, hs⟩

/-- The records of a batch are added one by one: the cycles are distinct. -/
theorem recordAll_added {u : Unit} {cycles : List Nat} (hnodup : cycles.Nodup)
    (hfree : ∀ c ∈ cycles, s.persistent (.contrib g c member) = none)
    (h : forEach (fun cycle => do
      let _ ← recordContributionUnchecked g cycle member amount time
      pure ()) cycles env s = .ok u t) (js : List Key) :
    Adds (fun s : State => s.persistent) Once (cycles.map fun c => Key.contrib g c member)
      (s, js) (t, js ++ cycles.map fun c => Key.contrib g c member) := by
  -- each record of the batch is written for the first time
  induction cycles generalizing s js with
  | nil =>
      rw [forEach_nil, pure_ok] at h
      obtain ⟨-, rfl⟩ := h
      exact ⟨rfl, List.nodup_nil, nofun, nofun, nofun, fun _ _ _ => rfl⟩
  | cons c cycles ih =>
      obtain ⟨hnew, hnodup⟩ := List.nodup_cons.mp hnodup
      simp at h
      obtain ⟨-, hrest⟩ := h
      have hadded : Added (.contrib g c member) s (recorded s g c member amount time) :=
        recorded_added (hfree c List.mem_cons_self)
      have hfirst := hadded.adds js
      have hstill : ∀ c' ∈ cycles,
          (recorded s g c member amount time).persistent (.contrib g c' member) = none := by
        intro c' hc'
        have hne : c' ≠ c := fun he => hnew (he ▸ hc')
        simp [recorded, hne, hfree c' (List.mem_cons_of_mem c hc')]
      have hall := hfirst.trans (ih hnodup hstill hrest (js ++ [.contrib g c member]))
      rwa [List.append_assoc] at hall

/-- A batch has written all its records before the one charge. -/
theorem contributeBatchBefore_added {sent : Address × Int} {cycles : List Nat}
    (h : contributeBatchBefore g member cycles env s = .ok sent t) (js : List Key) :
    Adds (fun s : State => s.persistent) Once (cycles.map fun c => Key.contrib g c member)
      (s, js) (t, js ++ cycles.map fun c => Key.contrib g c member) := by
  simp only [contributeBatchBefore, requireAuth_bind_ok, getOr_bind_ok, has_bind_ok,
    failIf_bind_ok] at h
  obtain ⟨-, -, grp, -, -, -, h⟩ := h
  obtain ⟨later, u, hcheck, h⟩ := bind_ok.mp h
  obtain ⟨rfl, hnodup, hopen⟩ := checkBatch_ok hcheck List.nodup_nil
  simp only [getOr_bind_ok, now_bind_ok, okOr_bind_ok] at h
  obtain ⟨config, -, total, -, h⟩ := h
  obtain ⟨⟨⟩, u, hrecord, h⟩ := bind_ok.mp h
  obtain ⟨-, rfl⟩ := pure_ok.mp h
  exact recordAll_added hnodup (fun c hc => (hopen c hc).2) hrecord js

end Before

/-! ## The executor, to the token call -/

section Payout

variable {env : Env} {s t u : State} {g : Nat} {grp : SaveData.Group} {recipient : Address}
  {amount : Int} {a b : World} {e : SaveError} {sent : Address × Address × Int × SaveData.Group}

/-- How the executor reaches the token call: the group `grp` it read, the state
    `u` after the checks. -/
structure ReachesTransfer (env : Env) (a : World) (g : Nat)
    (sent : Address × Address × Int × SaveData.Group) (b : World) (grp : SaveData.Group)
    (u : State) : Prop where
  group : groupAt a.1 g = some grp
  valid : Validated env (locked a.1 g grp) g (marked grp) sent.2.1 sent.2.2.1 u
  copy : sent.2.2.2 = (marked grp).advanced
  books : b.1 = settled u g (marked grp) sent.2.1 sent.2.2.1 env.timestamp
  journal : b.2 = a.2 ++ [Key.payRecip g grp.currentCycle]

/-- A payout that gets to its transfer has locked the group and settled it. -/
theorem executePayoutBefore_ok (h : executePayoutBefore g env a = .ok sent b) :
    ∃ grp u, ReachesTransfer env a g sent b grp u := by
  rw [executePayoutBefore] at h
  obtain ⟨marked', s₁, hlock, h⟩ := lift_bind_ok.mp h
  obtain ⟨-, grp, hgrp, -, rfl, rfl⟩ := lockPayout_ok.mp hlock
  obtain ⟨plan, u, hval, h⟩ := lift_bind_ok.mp h
  rw [note_bind_ok] at h
  obtain ⟨grp', v, hset, h⟩ := lift_bind_ok.mp h
  obtain ⟨-, rfl, rfl⟩ := settlePayout_ok.mp hset
  obtain ⟨⟨⟩, w, hpos, h⟩ := lift_bind_ok.mp h
  obtain ⟨-, rfl⟩ := failIf_ok.mp hpos
  obtain ⟨config, w, htok, h⟩ := lift_bind_ok.mp h
  obtain rfl := Within.eq_of_ok htok
  obtain ⟨rfl, rfl⟩ := pure_ok.mp h
  exact ⟨grp, u, hgrp, validatePayout_ok.mp hval, rfl, rfl, rfl⟩

/-- The recipient of the cycle is noted for the first time. -/
theorem noted_added {cycle time : Nat} (hfree : s.persistent (.payRecip g cycle) = none) :
    Added (.payRecip g cycle) s (noted s g cycle recipient amount time) where
  watched := by simp [Once, onceKinds]
  fresh := hfree
  present := by simp [noted]
  frame k hk hne := by
    cases k <;> simp_all [noted, Once, onceKinds]

/-- What else is settled adds nothing to that. -/
theorem settled_added {time : Nat} (hfree : s.persistent (.payRecip g grp.currentCycle) = none) :
    Added (.payRecip g grp.currentCycle) s (settled s g grp recipient amount time) where
  watched := by simp [Once, onceKinds]
  fresh := hfree
  present := by simp [settled, noted]
  frame k hk hne := by
    cases k <;> simp_all [settled, noted, Once, onceKinds]

/-- The lock and the checks touch none of the entries, and the recipient's is
    still absent. -/
theorem checked_written (hv : Validated env (locked s g grp) g (marked grp) recipient amount u)
    (js : List Key) :
    Written (s, js) (u, js) ∧ u.persistent (.payRecip g grp.currentCycle) = none := by
  have hlock : Written (s, js) (locked s g grp, js) :=
    Written.of_agree (not_once rfl) js (locked_agree s g grp)
  have hchecks : Written (locked s g grp, js) (u, js) :=
    Written.of_agree (not_once rfl) js hv.agree
  refine ⟨trans_of Written hlock hchecks, ?_⟩
  rw [hv.agree.persistent _ (by simp)]
  exact hv.unpaid

/-- So a payout has written exactly the recipient when the token is called. -/
theorem ReachesTransfer.written (h : ReachesTransfer env a g sent b grp u) : Written a b := by
  obtain ⟨hchecks, hfree⟩ := checked_written h.valid a.2
  have hadded : Added (.payRecip g (marked grp).currentCycle) u (settled u g (marked grp) sent.2.1 sent.2.2.1 env.timestamp) :=
    settled_added hfree
  have hbooks := hadded.adds a.2
  have hend : b = (settled u g (marked grp) sent.2.1 sent.2.2.1 env.timestamp,
      a.2 ++ [Key.payRecip g grp.currentCycle]) := Prod.ext h.books h.journal
  rw [hend]
  exact trans_of Written hchecks ⟨_, hbooks⟩

/-- An error before the token call leaves an added entry noted, too. -/
theorem executePayoutBefore_err (h : executePayoutBefore g env a = .err e b) : Written a b := by
  -- a program without these keys in its scope writes none of them
  have hquiet : ∀ {s t : State} {js : List Key},
      Agree (scope [.of .grp g, .of .mbrPen g, .of .cycTotal g] True False) s t →
        Written (s, js) (t, js) := fun ha =>
    Written.of_agree (not_once rfl) _ ha
  rw [executePayoutBefore] at h
  -- the payout may stop before it has written anything
  rcases lift_bind_err.mp h with ⟨t, herr, rfl⟩ | ⟨marked', s₁, hlock, h⟩
  · exact hquiet (Within.agree_err herr)
  obtain ⟨-, grp, hgrp, -, rfl, rfl⟩ := lockPayout_ok.mp hlock
  rcases lift_bind_err.mp h with ⟨t, herr, rfl⟩ | ⟨plan, u, hval, h⟩
  · exact trans_of Written (hquiet (Within.agree_ok hlock)) (hquiet (Within.agree_err herr))
  obtain ⟨hchecks, hfree⟩ := checked_written (validatePayout_ok.mp hval) a.2
  refine trans_of Written hchecks ?_
  rw [note_bind_err] at h
  -- or after the recipient was noted
  rcases lift_bind_err.mp h with ⟨t, herr, rfl⟩ | ⟨grp', v, hset, h⟩
  · obtain ⟨-, rfl⟩ := settlePayout_err (validatePayout_ok.mp hval).member herr
    exact ⟨_, (noted_added hfree).adds a.2⟩
  obtain ⟨-, rfl, rfl⟩ := settlePayout_ok.mp hset
  have hadded : Added (.payRecip g (marked grp).currentCycle) u (settled u g (marked grp) plan.1 plan.2 env.timestamp) :=
    settled_added hfree
  have hbooks := hadded.adds a.2
  -- or with everything settled
  rcases lift_bind_err.mp h with ⟨t, herr, rfl⟩ | ⟨⟨⟩, w, hpos, h⟩
  · obtain rfl := Within.eq_of_err herr
    exact ⟨_, hbooks⟩
  obtain ⟨-, rfl⟩ := failIf_ok.mp hpos
  rcases lift_bind_err.mp h with ⟨t, herr, rfl⟩ | ⟨config, w, htok, h⟩
  · obtain rfl := Within.eq_of_err herr
    exact ⟨_, hbooks⟩
  exact (pure_err.mp h).elim

end Payout

/-! ## Every entry point, over any token that does the same -/

section Step

variable {x : Tokens} {g : Nat}

/-- What is left after a token call touches none of the entries. -/
theorem outer_written (hx : Respects Written x) (o : Outer) : Keeps Written (o.body x) := by
  -- what comes before the token call, the call, and what is left, one by one
  have hrest : ∀ {m : CallbackM Pending}, Keeps Written m →
      (∀ env a pending b, m env a = .ok pending b → Keeps Written (lift pending.rest)) →
      Keeps Written (do let pending ← m; handOver x pending.asked; lift pending.rest) := by
    intro m hm hafter env a v c h
    obtain ⟨pending, b, hb, h⟩ := bind_ok.mp h
    have hmid := Keeps.bind (Keeps.handOver hx pending.asked) fun _ => hafter env a pending b hb
    exact trans_of Written (hm env a pending b hb) (hmid env b v c h)
  cases o with
  | contribute g member amount =>
      refine hrest (keeps_noting (m := contributeBefore g member amount)
        (k := fun sent => Key.contrib g sent.2 member)
        (fun _ _ _ _ h => contributeBefore_added h) fun _ => Keeps.pure _) ?_
      intro env a pending b h
      obtain ⟨sent, t, -, hsent⟩ := lift_bind_ok.mp h
      obtain ⟨rfl, -⟩ := pure_ok.mp hsent
      exact keeps_of_within (w := scope [] True False) (not_once rfl)
  | contributeBatch g member cycles =>
      refine hrest ?_ ?_
      · intro env a v b h
        obtain ⟨sent, t, hrun, hsent⟩ := lift_bind_ok.mp h
        obtain ⟨-, rfl⟩ := pure_ok.mp hsent
        exact ⟨_, contributeBatchBefore_added hrun a.2⟩
      · intro env a pending b h
        obtain ⟨sent, t, -, hsent⟩ := lift_bind_ok.mp h
        obtain ⟨rfl, -⟩ := pure_ok.mp hsent
        exact keeps_of_readOnly
  | requestRefund g cycle caller =>
      refine hrest (keeps_noting (m := requestRefundBefore g cycle caller)
        (k := fun sent => Key.refund g cycle sent.2.member)
        (fun _ _ _ _ h => requestRefundBefore_added h) fun _ => Keeps.pure _) ?_
      intro env a pending b h
      obtain ⟨sent, t, -, hsent⟩ := lift_bind_ok.mp h
      obtain ⟨rfl, -⟩ := pure_ok.mp hsent
      exact keeps_of_readOnly
  | executePayout g =>
      refine hrest ?_ ?_
      · intro env a v b h
        obtain ⟨sent, c, hrun, hsent⟩ := bind_ok.mp h
        obtain ⟨-, rfl⟩ := pure_ok.mp hsent
        obtain ⟨grp, u, hreach⟩ := executePayoutBefore_ok hrun
        exact hreach.written
      · intro env a pending b h
        obtain ⟨sent, c, -, hsent⟩ := bind_ok.mp h
        obtain ⟨rfl, -⟩ := pure_ok.mp hsent
        exact keeps_of_within (w := scope [.of .grp g] False False)
          (not_once rfl)

/-- After the token call the executor cannot err. -/
theorem executePayout_err_written {env : Env} {a b : World} {e : SaveError}
    (h : Outer.body x (.executePayout g) env a = .err e b) : Written a b := by
  rcases bind_err.mp h with hbefore | ⟨pending, c, hbefore, h⟩
  · rcases bind_err.mp hbefore with hbefore | ⟨sent, c, -, hpure⟩
    · exact executePayoutBefore_err hbefore
    · exact (pure_err.mp hpure).elim
  obtain ⟨sent, d, -, hsent⟩ := bind_ok.mp hbefore
  obtain ⟨rfl, -⟩ := pure_ok.mp hsent
  rcases bind_err.mp h with hover | ⟨⟨⟩, d, -, hput⟩
  · exact (handOver_ne_err hover).elim
  · obtain ⟨t, hput, -⟩ := lift_err.mp hput
    cases hput

/-- The tick goes on after an executor that erred. -/
theorem tick_written (hx : Respects Written x) (g : Nat) : Keeps Written (tick x g) := by
  have hpay : Keeps Written (attempt (Outer.body x (.executePayout g))) := by
    intro env a v b h
    rw [attempt] at h
    cases hrun : Outer.body x (.executePayout g) env a with
    | ok u c =>
        rw [hrun] at h
        cases h
        exact outer_written hx _ env a u b hrun
    | err e c =>
        rw [hrun] at h
        cases h
        exact executePayout_err_written hrun
    | trap =>
        rw [hrun] at h
        cases h
    | mistyped =>
        rw [hrun] at h
        cases h
  iterate 6 refine Keeps.bind keeps_of_readOnly fun _ => ?_
  refine Keeps.bind (Keeps.runIf _ (Keeps.bind hpay fun _ => Keeps.pure _)) fun _ => ?_
  refine Keeps.bind keeps_of_readOnly fun grp' => ?_
  refine Keeps.bind (keeps_of_within (w := scope [.of .grp g] False False)
    (not_once rfl)) fun _ => ?_
  exact keeps_of_readOnly

/-- The collection writes once, under any token that does. -/
theorem executeAutoContributions_written (hx : Respects Written x) (g : Nat) :
    Keeps Written (executeAutoContributions x g) := by
  iterate 5 refine Keeps.bind keeps_of_readOnly fun _ => ?_
  refine Keeps.foldEach (fun executed member => ?_) _ _
  intro env a v b h
  obtain ⟨due, t, hdue, h⟩ := lift_bind_ok.mp h
  rcases autoContributeBefore_added hdue with ⟨rfl, rfl⟩ | ⟨rfl, hadd⟩
  · obtain ⟨-, rfl⟩ := pure_ok.mp h
    exact refl_of Written a
  · rw [if_pos rfl, note_bind_ok] at h
    have hsend := Keeps.bind (Keeps.handOver hx _) (fun _ => keeps_of_readOnly) env _ v b h
    exact trans_of Written ⟨_, hadd.adds a.2⟩ hsend

/-- So does a dissolution, member by member. -/
theorem executeDissolution_written (hx : Respects Written x) (g : Nat)
    (grp : SaveData.Group) : Keeps Written (executeDissolution x g grp) := by
  refine Keeps.bind (keeps_of_within (w := scope [.of .grp g] False False)
    (not_once rfl)) fun _ => ?_
  refine Keeps.bind (keeps_of_within (w := scope [.of .grpStat g] False False)
    (not_once rfl)) fun _ => ?_
  iterate 3 refine Keeps.bind keeps_of_readOnly fun _ => ?_
  refine Keeps.forEach (fun member => ?_) _
  intro env a v b h
  obtain ⟨sent, t, hsent, h⟩ := lift_bind_ok.mp h
  rcases refundOnDissolutionBefore_added hsent with ⟨rfl, rfl⟩ | ⟨n, rfl, hadd⟩
  · obtain ⟨-, rfl⟩ := pure_ok.mp h
    exact refl_of Written a
  · exact trans_of Written ⟨_, hadd.adds a.2⟩ (Keeps.handOver hx _ env _ v b h)

set_option synthInstance.maxSize 8192 in
instance (g : Nat) (caller : Address) :
    Within (scope [.of .cDisVote g, .of .cDisCnt g] False False)
      (voteDissolveBefore g caller) := by
  rw [voteDissolveBefore]
  infer_instance

set_option synthInstance.maxSize 8192 in
instance (g : Nat) (member : Address) :
    Within (scope [.of .grpBal g, .of .mbrProf g] False False)
      (emergencyWithdrawBefore g member) := by
  rw [emergencyWithdrawBefore]
  infer_instance

set_option synthInstance.maxSize 2048 in
instance (member : Address) (g : Nat) :
    Within (scope [.of .mbrRwdC g] False False) (claimCompletionRewardBefore member g) := by
  rw [claimCompletionRewardBefore]
  infer_instance

set_option synthInstance.maxSize 65536 in
instance (creator : Address) (amount : Int) (duration maxMembers : Nat) (tok : Address)
    (grace : Nat) (order : PayoutOrder) :
    Within (scope [.anywhere .cntNextG, .anywhere .grp, .anywhere .grpStat, .anywhere .grpTok]
      False False) (createGroupBefore creator amount duration maxMembers tok grace order) := by
  rw [createGroupBefore]
  infer_instance

/-- A call that moves no money and may touch none of the entries. -/
theorem call_written (c : Call) (hc : ∀ k, Once k → ¬ c.footprint.persistent k) :
    Keeps Written (lift c.body) := keeps_of_within hc

/-- **STEP**: every entry point, over tokens that only add, only adds. -/
theorem reentrant_written (hx : Respects Written x) (c : Call) :
    Keeps Written (reentrant x c) := by
  cases c with
  | contribute g member amount => exact outer_written hx _
  | contributeBatch g member cycles => exact outer_written hx _
  | requestRefund g cycle caller => exact outer_written hx _
  | executePayout g => exact outer_written hx _
  | tick g => exact tick_written hx g
  | executeAutoContributions g =>
      exact Keeps.bind (executeAutoContributions_written hx g) fun _ => Keeps.pure _
  | contributeWithProof g member amount =>
      exact keeps_noting (m := contributeWithProofBefore g member amount)
        (fun _ _ _ _ h => contributeWithProofBefore_added h) fun _ => Keeps.pure _
  | emergencyWithdraw g member =>
      refine Keeps.bind (keeps_of_within (w := scope [.of .grpBal g, .of .mbrProf g] False False)
        (not_once rfl)) fun sent => ?_
      exact Keeps.onOption _ (Keeps.pure _) fun _ => Keeps.handOver hx _
  | claimCompletionReward member g =>
      refine Keeps.bind (keeps_of_within (w := scope [.of .mbrRwdC g] False False)
        (not_once rfl)) fun sent => ?_
      exact Keeps.onOption _ (Keeps.pure _) fun _ => Keeps.handOver hx _
  | voteDissolve g caller =>
      refine Keeps.bind (keeps_of_within (w := scope [.of .cDisVote g, .of .cDisCnt g] False False)
        (not_once rfl)) fun voted => ?_
      exact Keeps.runIf _ (executeDissolution_written hx g voted.1)
  | createGroup creator amount duration maxMembers tok grace order =>
      refine Keeps.bind (keeps_of_within (w := scope [.anywhere .cntNextG, .anywhere .grp,
        .anywhere .grpStat, .anywhere .grpTok] False False)
        (not_once rfl)) fun fee => ?_
      exact Keeps.onOption _ (Keeps.pure _) fun _ => Keeps.handOver hx _
  | _ => exact call_written _ (not_once rfl)

end Step

/-! ## Nests -/

/-- What a token does with its own storage. -/
def ownMoves (a b : World) : Prop := ∃ l, b = (a.1.setLedger l, a.2)

/-- Tokens that call back, nested at most `n` deep. -/
abbrev CallsBack (n : Nat) (x : Tokens) : Prop := Nested ownMoves reentrant n x

/-- From `a` to `b` every contribution record, refund record and payout was
    made at most once, and never where there was one. -/
def AtMostOnce (a b : World) : Prop :=
  ∃ made, b.2 = a.2 ++ made ∧
    (∀ g c m, made.count (.contrib g c m) ≤
      if (a.1.persistent (.contrib g c m)).isSome then 0 else 1) ∧
    (∀ g c m, made.count (.refund g c m) ≤
      if (a.1.persistent (.refund g c m)).isSome then 0 else 1) ∧
    (∀ g c, made.count (.payRecip g c) ≤
      if (a.1.persistent (.payRecip g c)).isSome then 0 else 1) ∧
    (∀ k, Once k → a.1.persistent k = none → b.1.persistent k ≠ none → k ∈ made) ∧
    ∀ k, Once k → a.1.persistent k ≠ none → b.1.persistent k = a.1.persistent k

section Nests

variable {n : Nat} {x : Tokens} {a b : World}

/-- **RUN**: whatever the calls nested in a token call, entries were only
    added. -/
theorem callsBack_written (hx : CallsBack n x) : Respects Written x :=
  hx.respects (fun a b hab => by
    obtain ⟨l, rfl⟩ := hab
    exact Grown.of_frame rfl fun _ _ => rfl)
    fun _ c hy env a b h => reentrant_written hy c env a () b h

/-- A key in the journal stands there once. -/
theorem Written.atMostOnce (h : Written a b) : AtMostOnce a b := by
  obtain ⟨made, hmade⟩ := h
  exact ⟨made, hmade.journal, fun g c m => hmade.count_le, fun g c m => hmade.count_le,
    fun g c => hmade.count_le, fun k hk ha hb => hmade.complete hk ha hb,
    fun k hk ha => hmade.settled hk ha⟩

end Nests

/-! ## The stale copy -/

/-- A record with its payout mark taken off. -/
def released (grp : SaveData.Group) : SaveData.Group := { grp with payoutInProgress := false }

/-- A group's record, whatever its payout mark. -/
def recordAt (s : State) (g : Nat) : Option SaveData.Group := (groupAt s g).map released

/-- No record that the calls nested in the token call changed is changed back
    by what the outer call does afterwards. -/
def NothingLost (x : Tokens) (o : Outer) (env : Env) (a : World) : Prop :=
  ∀ pending a' b t, o.before env a = .ok pending a' → x pending.asked env a' = some b →
    pending.rest env b.1 = .ok () t →
      ∀ g, recordAt b.1 g ≠ recordAt a'.1 g → recordAt t g = recordAt b.1 g

/-- The calls nested in the token call leave the record of group `g` as they
    found it. -/
def LeavesRecord (x : Tokens) (o : Outer) (env : Env) (a : World) (g : Nat) : Prop :=
  ∀ pending a' b, o.before env a = .ok pending a' → x pending.asked env a' = some b →
    recordAt b.1 g = recordAt a'.1 g

section Stale

variable {x : Tokens} {env : Env} {a : World} {o : Outer}

/-- Only the executor writes storage after the token call. -/
theorem rest_frame {pending : Pending} {a' : World} {s t : State}
    (ho : ∀ g, o ≠ .executePayout g) (hbefore : o.before env a = .ok pending a')
    (hrest : pending.rest env s = .ok () t) : t.persistent = s.persistent := by
  have hagree : Agree (scope [] True False) s t := by
    cases o with
    | contribute g member amount =>
        obtain ⟨sent, u, -, hsent⟩ := lift_bind_ok.mp hbefore
        obtain ⟨rfl, -⟩ := pure_ok.mp hsent
        change (tempPut .guard (U64.mk 0) : SaveM Unit) env s = .ok () t at hrest
        exact Within.agree_ok hrest
    | contributeBatch g member cycles =>
        obtain ⟨sent, u, -, hsent⟩ := lift_bind_ok.mp hbefore
        obtain ⟨rfl, -⟩ := pure_ok.mp hsent
        change (pure () : SaveM Unit) env s = .ok () t at hrest
        exact Within.agree_ok hrest
    | requestRefund g cycle caller =>
        obtain ⟨sent, u, -, hsent⟩ := lift_bind_ok.mp hbefore
        obtain ⟨rfl, -⟩ := pure_ok.mp hsent
        change (pure () : SaveM Unit) env s = .ok () t at hrest
        exact Within.agree_ok hrest
    | executePayout g => exact absurd rfl (ho g)
  exact funext fun k => hagree.persistent k (by simp)

/-- What the executor stores last is the record it had stored before the token
    call. -/
theorem executePayout_restores {g : Nat} {pending : Pending} {a' : World}
    (hown : ∀ grp, groupAt a.1 g = some grp → grp.id = g)
    (hbefore : Outer.before (.executePayout g) env a = .ok pending a')
    {s t : State} (hrest : pending.rest env s = .ok () t) :
    recordAt t g = recordAt a'.1 g ∧ ∀ j, j ≠ g → recordAt t j = recordAt s j := by
  obtain ⟨sent, d, hrun, hsent⟩ := bind_ok.mp hbefore
  obtain ⟨rfl, rfl⟩ := pure_ok.mp hsent
  obtain ⟨grp, u, hreach⟩ := executePayoutBefore_ok hrun
  have hid : grp.id = g := hown grp hreach.group
  change (put (.grp g) (released sent.2.2.2) : SaveM Unit) env s = .ok () t at hrest
  obtain rfl := put_ok.mp hrest
  have hbefore : groupAt d.1 g = some (marked grp).advanced := by
    rw [hreach.books]
    simp [settled, groupAt, hid]
  have hafter : ∀ j, groupAt (s.set (.grp g) (Codec.encode (released sent.2.2.2))) j =
      if j = g then some (released sent.2.2.2) else groupAt s j := by
    intro j
    by_cases hj : j = g <;> simp [groupAt, hj]
  constructor
  · rw [recordAt, recordAt, hafter, if_pos rfl, hbefore, hreach.copy]
    rfl
  · intro j hj
    rw [recordAt, hafter, if_neg hj, recordAt]

/-- Only a payout can lose what a callback wrote: it stores the record it had read
    before. -/
theorem nothingLost_iff
    (hown : ∀ g, o = .executePayout g → ∀ grp, groupAt a.1 g = some grp → grp.id = g)
    {c : World} (hrun : o.body x env a = .ok () c) :
    NothingLost x o env a ↔ ∀ g, o = .executePayout g → LeavesRecord x o env a g := by
  constructor
  · rintro hkept g rfl pending a' b hbefore hx
    obtain ⟨pending', d, hbefore', hrest⟩ := bind_ok.mp hrun
    rw [hbefore] at hbefore'
    obtain ⟨rfl, rfl⟩ : pending = pending' ∧ a' = d := by
      cases hbefore'
      exact ⟨rfl, rfl⟩
    obtain ⟨b', hx', hrest⟩ := handOver_bind_ok.mp hrest
    obtain rfl := Option.some.inj (hx.symm.trans hx')
    obtain ⟨t, ht, -⟩ := lift_ok.mp hrest
    by_contra hne
    have hstored := (executePayout_restores (hown g rfl) hbefore ht).1
    exact hne ((hkept pending a' b t hbefore hx ht g hne).symm.trans hstored)
  · intro hleaves pending a' b t hbefore hx hrest g hchanged
    by_cases ho : ∃ j, o = .executePayout j
    · obtain ⟨j, rfl⟩ := ho
      have hj : g ≠ j := by
        rintro rfl
        exact hchanged (hleaves g rfl pending a' b hbefore hx)
      exact (executePayout_restores (hown j rfl) hbefore hrest).2 g hj
    · have hsame := rest_frame (fun j hj => ho ⟨j, hj⟩) hbefore hrest
      rw [recordAt, recordAt, groupAt, groupAt, hsame]

end Stale

/-- **REENTRANCY**: whatever finite nest of calls the token makes, every
    contribution, refund and payout is made at most once; and no record a
    nested call changed is changed back, except by an executor during whose
    token call that very group's record was changed. -/
theorem nested_calls_harmless (n : Nat) (x : Tokens) (hx : CallsBack n x) (o : Outer) (env : Env)
    (a b : World) (hreg : Registry a.1) (hrun : o.body x env a = .ok () b) :
    AtMostOnce a b ∧
      (NothingLost x o env a ↔ ∀ g, o = .executePayout g → LeavesRecord x o env a g) :=
  ⟨Written.atMostOnce (outer_written (callsBack_written hx) o env a () b hrun),
    nothingLost_iff (fun g _ => hreg.own g) hrun⟩

/-! ## Two tokens: one that calls nobody, one that pauses the group it pays for -/

/-- Once the money has moved, the creator's token pauses the pair. -/
def pausing : Tokens := fun q env a =>
  match honest q env a with
  | none => none
  | some b =>
      match pauseGroup 1 ⟨1⟩ signedEnv b.1 with
      | .ok _ t => some (t, b.2)
      | .err _ _ => none
      | .trap => none
      | .mistyped => none

/-- An honest token moves nothing but its ledger. -/
theorem honest_moves {q : TokenCall} {env : Env} {a b : World} (h : honest q env a = some b) :
    ownMoves a b := by
  rw [honest] at h
  rcases plain_ok_or_trap q env a.1 with ⟨t, ht⟩ | ht
  · rw [ht] at h
    obtain rfl := Option.some.inj h
    have hagree : Agree (scope [] False True) a.1 t := by
      cases q with
      | transfer tok src dst n => exact Within.agree_ok (m := tokenTransfer tok src dst n) ht
      | transferFrom tok src dst n =>
          exact Within.agree_ok (m := tokenTransferFrom tok src dst n) ht
    exact ⟨t.ledger, by rw [hagree.eq_setLedger (by simp) (by simp [scope])]⟩
  · rw [ht] at h
    cases h

/-- And calls nobody. -/
theorem honest_callsBack (n : Nat) : CallsBack n honest := by
  intro q env a b h
  cases n with
  | zero => exact Relation.ReflTransGen.single (honest_moves h)
  | succ n => exact Relation.ReflTransGen.single (Or.inl (honest_moves h))

/-- The pausing token calls one entry point, over honest tokens. -/
theorem pausing_callsBack : CallsBack 1 pausing := by
  intro q env a c h
  rw [pausing] at h
  cases hb : honest q env a with
  | none =>
      rw [hb] at h
      cases h
  | some b =>
      rw [hb] at h
      refine Relation.ReflTransGen.tail (Relation.ReflTransGen.single (Or.inl (honest_moves hb))) ?_
      refine Or.inr ⟨honest, .pauseGroup 1 ⟨1⟩, signedEnv, honest_callsBack 0, ?_⟩
      show lift (pauseGroup 1 ⟨1⟩) signedEnv b = .ok () c
      rw [lift]
      dsimp only at h
      cases hp : pauseGroup 1 ⟨1⟩ signedEnv b.1 with
      | ok u t =>
          rw [hp] at h
          obtain rfl := Option.some.inj h
          rfl
      | err e t =>
          rw [hp] at h
          cases h
      | trap =>
          rw [hp] at h
          cases h
      | mistyped =>
          rw [hp] at h
          cases h

/-- The theorem at a payout over the token that calls back. -/
theorem nested_calls_harmless_pair :
    CallsBack 1 pausing ∧ Registry (pairState 3 200) ∧
      ∃ b, Outer.body pausing (.executePayout 1) idleEnv (pairState 3 200, []) = .ok () b ∧
        AtMostOnce (pairState 3 200, []) b ∧
        (NothingLost pausing (.executePayout 1) idleEnv (pairState 3 200, []) ↔
          ∀ g, Outer.executePayout 1 = .executePayout g →
            LeavesRecord pausing (.executePayout 1) idleEnv (pairState 3 200, []) g) := by
  have hrun : ∃ b, Outer.body pausing (.executePayout 1) idleEnv (pairState 3 200, [])
      = .ok () b := ⟨_, rfl⟩
  obtain ⟨b, hb⟩ := hrun
  exact ⟨pausing_callsBack, pairState_registry 3 200, b, hb,
    nested_calls_harmless 1 pausing pausing_callsBack (.executePayout 1) idleEnv
      (pairState 3 200, []) b (pairState_registry 3 200) hb⟩

/-- **THE PAUSE IS LOST**: the pair is paused while it is being paid, and the
    executor stores it running again. -/
theorem pause_lost :
    ¬ ∀ (n : Nat) (x : Tokens), CallsBack n x → ∀ (o : Outer) (env : Env) (a b : World),
      Registry a.1 → o.body x env a = .ok () b → AtMostOnce a b ∧ NothingLost x o env a := by
  intro hall
  have hrun : ∃ b, Outer.body pausing (.executePayout 1) idleEnv (pairState 3 200, []) = .ok () b :=
    ⟨_, rfl⟩
  obtain ⟨b, hb⟩ := hrun
  have hkept := (hall 1 pausing pausing_callsBack (.executePayout 1) idleEnv (pairState 3 200, []) b
    (pairState_registry 3 200) hb).2
  have hstored := hkept _ _ _ _ rfl rfl rfl 1 (by decide)
  exact absurd hstored (by decide)

end SaveCallback
