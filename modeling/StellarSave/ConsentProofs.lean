import StellarSave.FreezeProofs
import StellarSave.RewardProofs

/-! # Consent — whose money a call can take

    The contract pays out of its own account without asking anybody.  Out of
    anybody else's it takes in four places: the creation fee, a contribution, a
    batch of them, and the automatic sweep.  The first three ask for the
    signature of the account they charge.  The sweep asks nobody: what stands
    behind it is a flag the account set earlier, by a call it signed.

    So the statement is about runs: behind every charge there is a signature,
    at the charge itself or at the switch-on that has stood ever since. -/

namespace SaveConsent

open HostProg Footprint TokenLedger SaveData SaveContribution SavePayout SaveRefund SaveMembership
open SaveLifecycle SaveAdmin SaveCall SaveStatus SaveFreeze Trace
open SaveRoster (trioEnv)
open SaveRotation (fundedOpen)
open SaveReward (readyToPay)

/-- The flag the sweep looks at. -/
abbrev autoOn (s : State) (g : Nat) (a : Address) : Bool :=
  (readAt Bool s.persistent (.mbrAuto g a)).getD false

/-- **THE FOUR CHARGES**: the calls that take `n` of `tok` out of the account of
    `a`, and what each has checked before it does. -/
inductive Charge (env : Env) (s : State) (a tok : Address) : Call → Int → Prop where
  | fee {amount : Int} {duration maxMembers grace : Nat} {order : PayoutOrder}
      {config : ContractConfig} (signed : a ∈ env.signers)
      (config_eq : readAt ContractConfig s.persistent .config = some config)
      (treasury : config.treasury ≠ none) :
      Charge env s a tok (.createGroup a amount duration maxMembers tok grace order)
        config.creationFee
  | contribution {g : Nat} {grp : SaveData.Group} {config : TokenConfig} (signed : a ∈ env.signers)
      (group : groupAt s g = some grp) (active : grp.status = .active)
      (token : tokenAt s g = some config ∧ config.tokenAddress = tok)
      (free : s.persistent (.contrib g grp.currentCycle a) = none) :
      Charge env s a tok (.contribute g a grp.contributionAmount) grp.contributionAmount
  | batch {g : Nat} {cycles : List Nat} {grp : SaveData.Group} {config : TokenConfig}
      (signed : a ∈ env.signers) (group : groupAt s g = some grp) (active : grp.status = .active)
      (token : tokenAt s g = some config ∧ config.tokenAddress = tok) (distinct : cycles.Nodup)
      (free : ∀ c ∈ cycles, s.persistent (.contrib g c a) = none) :
      Charge env s a tok (.contributeBatch g a cycles) (grp.contributionAmount * cycles.length)
  | sweep {g : Nat} {grp : SaveData.Group} {config : TokenConfig} (enabled : autoOn s g a = true)
      (group : groupAt s g = some grp) (active : grp.status = .active)
      (token : tokenAt s g = some config ∧ config.tokenAddress = tok)
      (free : s.persistent (.contrib g grp.currentCycle a) = none) :
      Charge env s a tok (.executeAutoContributions g) grp.contributionAmount

/-! ## What a single transfer takes -/

section Transfers

variable {s t v : State} {l l' : Ledger} {tok tok' dst a m : Address} {n : Int}

/-- A pull takes from the payer, in one token, and from nobody else but the contract. -/
theorem holding_of_pull (tok : Address) (ha : a ≠ contractAddress)
    (h : Book.transferFrom l tok' m contractAddress n = some l') :
    Book.holding l' tok a = Book.holding l tok a - if tok = tok' ∧ a = m then n else 0 := by
  rw [Book.holding_transferFrom h]
  by_cases htok : tok = tok'
  · rw [if_pos htok, htok, moved, if_neg ha]
    simp only [true_and]
    omega
  · rw [if_neg htok, if_neg fun hc => htok hc.1]
    omega

/-- A transfer between two people takes from the sender at most, and only in one token. -/
theorem holding_of_send (h : Book.transfer l tok' m dst n = some l')
    (hless : Book.holding l' tok a < Book.holding l tok a) :
    tok = tok' ∧ a = m ∧ Book.holding l' tok a = Book.holding l tok a - n := by
  obtain ⟨-, -, hn, -⟩ := Book.transfer_isSome_iff.mp (Option.isSome_of_eq_some h)
  rw [Book.holding_transfer h] at hless ⊢
  by_cases htok : tok = tok'
  · rw [if_pos htok, htok, moved] at hless
    rw [if_pos htok, htok, moved]
    by_cases hm : a = m
    · rw [if_pos hm] at hless ⊢
      by_cases hdst : a = dst
      · rw [if_pos hdst] at hless
        omega
      · rw [if_neg hdst]
        exact ⟨rfl, hm, Int.add_zero _⟩
    · rw [if_neg hm] at hless
      by_cases hdst : a = dst
      · rw [if_pos hdst] at hless
        omega
      · rw [if_neg hdst] at hless
        omega
  · rw [if_neg htok] at hless
    exact absurd hless (Int.lt_irrefl _)

theorem onlyEscrowPays_of_ledger (h : t.ledger = s.ledger) : OnlyEscrowPays s t := by
  intro tok a _
  rw [h]

end Transfers

/-! ## Paying out charges nobody -/

section Payouts

variable {env : Env} {s t v : State} {g : Nat} {x : Unit} {grp : SaveData.Group}

/-- The checks of a payout move no token, however they end. -/
theorem validatePayout_ledger (h : EndsIn (validatePayout g (marked grp)) env (locked s g grp) v) :
    v.ledger = s.ledger := by
  rcases h with ⟨plan, hok⟩ | ⟨e, herr⟩
  · exact (Within.agree_ok (w := penaltyScope g) hok).ledger not_false
  · exact (Within.agree_err (w := penaltyScope g) herr).ledger not_false

/-- A payout pays out of escrow; one that errs has paid nothing yet. -/
theorem executePayout_pays (h : EndsIn (executePayout g) env s v) : OnlyEscrowPays s v := by
  rcases h with ⟨u, hok⟩ | ⟨e, herr⟩
  · obtain ⟨grp, recipient, amount, u, config, l, hpaid, rfl⟩ := executePayout_ok.mp hok
    have hchecked := validatePayout_ledger
      (Or.inl ⟨(recipient, amount), validatePayout_ok.mpr hpaid.valid⟩)
    have hsent := hpaid.sent
    rw [hchecked] at hsent
    exact onlyEscrowPays_of_transfer hsent rfl
  · rcases executePayout_err_cases herr with hlock | ⟨grp, -, hval | ⟨recipient, amount, u, hval, -, rfl⟩⟩
    · exact onlyEscrowPays_of_ledger
        ((Within.agree_err (w := scope [.of .grp g] True False) hlock).ledger not_false)
    · exact onlyEscrowPays_of_ledger (validatePayout_ledger (Or.inr ⟨e, hval⟩))
    · have hchecked := validatePayout_ledger (Or.inl ⟨(recipient, amount), validatePayout_ok.mpr hval⟩)
      exact onlyEscrowPays_of_ledger hchecked

theorem tick_pays (h : tick g env s = .ok x t) : OnlyEscrowPays s t := by
  obtain ⟨grp, v, -, -, -, ⟨-, rfl⟩ | ⟨-, hends⟩, rfl⟩ := tick_ok h
  · exact OnlyEscrowPays.refl _
  · exact (executePayout_pays hends).trans (OnlyEscrowPays.refl _)

end Payouts

/-! ## The sweep, seen by one account -/

/-- What a sweep of cycle `c` may have done to the account of `a` so far: nothing, or one
    charge, for a contribution that was not there before. -/
inductive SweptTo (s v : State) (g c : Nat) (tok' : Address) (n : Int) (a : Address) : Prop where
  | passed (money : ∀ tok, Book.holding v.ledger tok a = Book.holding s.ledger tok a)
      (record : v.persistent (.contrib g c a) = s.persistent (.contrib g c a))
  | charged (enabled : autoOn s g a = true) (free : s.persistent (.contrib g c a) = none)
      (money : ∀ tok, Book.holding v.ledger tok a =
        Book.holding s.ledger tok a - if tok = tok' then n else 0)
      (record : v.persistent (.contrib g c a) ≠ none)

section Sweep

variable {env : Env} {s t v w : State} {g c time k k' : Nat} {a m tok tok' : Address} {n : Int}

/-- The sweep charges nobody whose flag is off. -/
theorem autoContributeMember_enabled
    (h : autoContributeMember g c tok' n time k m env s = .ok k' t) :
    s = t ∨ autoOn s g m = true := by
  simp [autoContributeMember] at h
  obtain ⟨-, h⟩ := h
  rcases h with ⟨-, -, hskip⟩ | ⟨⟨henabled, -⟩, -⟩
  · exact Or.inl hskip
  · exact Or.inr henabled

/-- One member of the sweep, seen by the account of `a`. -/
theorem sweptTo_member (ha : a ≠ contractAddress) (hflag : v.persistent (.mbrAuto g a) = s.persistent (.mbrAuto g a))
    (hv : SweptTo s v g c tok' n a)
    (h : autoContributeMember g c tok' n time k m env v = .ok k' w) :
    SweptTo s w g c tok' n a := by
  rcases autoContributeMember_ok h with ⟨-, rfl⟩ | ⟨l, hfree, -, hpulled, -, rfl⟩
  · exact hv
  have hmoney : ∀ tok, Book.holding l tok a =
      Book.holding v.ledger tok a - if tok = tok' ∧ a = m then n else 0 :=
    fun tok => holding_of_pull _ ha hpulled
  by_cases hm : a = m
  · subst hm
    rcases hv with ⟨hsame, hrecord⟩ | ⟨-, -, -, hrecord⟩
    · refine .charged ?_ (hrecord ▸ hfree) ?_ ?_
      · rcases autoContributeMember_enabled h with hskip | henabled
        · -- a record was written, so the member was not skipped
          have hwritten := congrArg (fun x => x.persistent (.contrib g c a)) hskip
          simp [hfree, recorded] at hwritten
        · rwa [autoOn, readAt_congr hflag] at henabled
      · intro tok
        rw [← hsame tok]
        simpa using hmoney tok
      · simp [recorded]
    · exact absurd hfree hrecord
  -- the record and the money of this member stay
  · have hrecord : ((recorded v g c m n time).setLedger l).persistent (.contrib g c a) =
        v.persistent (.contrib g c a) := by
      simp [recorded, hm]
    have hkeep : ∀ tok, Book.holding l tok a = Book.holding v.ledger tok a := by
      intro tok
      rw [hmoney tok, if_neg fun hc => hm hc.2, Int.sub_zero]
    rcases hv with ⟨hsame, hrec⟩ | ⟨henabled, hnone, hless, hrec⟩
    · exact .passed (fun tok => (hkeep tok).trans (hsame tok)) (hrecord.trans hrec)
    · exact .charged henabled hnone (fun tok => (hkeep tok).trans (hless tok)) (hrecord ▸ hrec)

/-- **THE SWEEP CHARGES AN ACCOUNT AT MOST ONCE**, however often the roster lists it. -/
theorem executeAutoContributions_swept {count : Nat} (ha : a ≠ contractAddress)
    (h : executeAutoContributions g env s = .ok count t) :
    ∃ grp config, groupAt s g = some grp ∧ grp.status = .active ∧ tokenAt s g = some config ∧
      SweptTo s t g grp.currentCycle config.tokenAddress grp.contributionAmount a := by
  obtain ⟨grp, config, roster, hgrp, hactive, htoken, -, hloop⟩ := executeAutoContributions_ok h
  refine ⟨grp, config, hgrp, hactive, htoken, ?_⟩
  refine (foldEach_invariant
    (I := fun _ v => v.persistent (.mbrAuto g a) = s.persistent (.mbrAuto g a) ∧
      SweptTo s v g grp.currentCycle config.tokenAddress grp.contributionAmount a) ?_
    ⟨rfl, .passed (fun _ => rfl) rfl⟩ hloop).2
  rintro m - k v k' w ⟨hflag, hv⟩ hstep
  refine ⟨?_, sweptTo_member ha hflag hv hstep⟩
  have hagree := Within.agree_ok (w := scope (contributionPlaces g) False True) hstep
  exact (hagree.persistent _ (Place.other_kind rfl)).trans hflag

end Sweep

/-! ## Every charge is one of the four -/

section Charges

variable {env : Env} {s t : State} {c : Call} {a tok : Address}

theorem createGroup_charge {creator tok' : Address} {amount : Int}
    {duration maxMembers grace n : Nat} {order : PayoutOrder}
    (h : createGroup creator amount duration maxMembers tok' grace order env s = .ok n t)
    (hless : Book.holding t.ledger tok a < Book.holding s.ledger tok a) :
    ∃ fee, Charge env s a tok (.createGroup creator amount duration maxMembers tok' grace order) fee ∧
      Book.holding t.ledger tok a = Book.holding s.ledger tok a - fee := by
  obtain ⟨hsigned, -, rounded, decimals, w, -, -, rfl, hfee⟩ := createGroup_steps h
  rcases onOption_ok.mp hfee with ⟨-, hnone⟩ | ⟨config, hconfig, hcharge⟩
  · obtain ⟨-, rfl⟩ := pure_ok.mp hnone
    exact absurd hless (Int.lt_irrefl _)
  rcases runIf_ok.mp hcharge with ⟨-, hsend⟩ | ⟨-, rfl⟩
  swap
  · exact absurd hless (Int.lt_irrefl _)
  rcases onOption_ok.mp hsend with ⟨-, hnone⟩ | ⟨treasury, htreasury, htransfer⟩
  · obtain ⟨-, rfl⟩ := pure_ok.mp hnone
    exact absurd hless (Int.lt_irrefl _)
  obtain ⟨-, l, hl, rfl⟩ := tokenTransfer_ok.mp htransfer
  obtain ⟨rfl, rfl, hexact⟩ := holding_of_send hl hless
  refine ⟨config.creationFee, .fee hsigned ?_ (by simp [htreasury]), hexact⟩
  -- the record, the status and the token of the new group are no configuration
  rw [← hconfig]
  simp [created]

theorem contribute_charge {g : Nat} {m : Address} {amount : Int} (ha : a ≠ contractAddress)
    (h : contribute g m amount env s = .ok () t)
    (hless : Book.holding t.ledger tok a < Book.holding s.ledger tok a) :
    ∃ n, Charge env s a tok (.contribute g m amount) n ∧
      Book.holding t.ledger tok a = Book.holding s.ledger tok a - n := by
  obtain ⟨grp, config, l, hc, rfl⟩ := contribute_ok h
  have hmoney : Book.holding l tok a = Book.holding s.ledger tok a -
      if tok = config.tokenAddress ∧ a = m then amount else 0 := holding_of_pull _ ha hc.pulled
  have hdrop : Book.holding l tok a < Book.holding s.ledger tok a := hless
  by_cases hcond : tok = config.tokenAddress ∧ a = m
  · rw [if_pos hcond] at hmoney
    obtain ⟨rfl, rfl⟩ := hcond
    obtain rfl := hc.amount_eq
    exact ⟨_, .contribution hc.signed hc.group hc.active ⟨hc.token, rfl⟩ hc.free, hmoney⟩
  · rw [if_neg hcond] at hmoney
    omega

theorem contributeBatch_charge {g : Nat} {m : Address} {cycles : List Nat}
    (ha : a ≠ contractAddress) (h : contributeBatch g m cycles env s = .ok () t)
    (hless : Book.holding t.ledger tok a < Book.holding s.ledger tok a) :
    ∃ n, Charge env s a tok (.contributeBatch g m cycles) n ∧
      Book.holding t.ledger tok a = Book.holding s.ledger tok a - n := by
  obtain ⟨grp, config, w, l, hb, rfl⟩ := contributeBatch_ok h
  have hbooked : w.ledger = s.ledger :=
    (Within.agree_ok (w := scope (contributionPlaces g) False False) hb.recorded).ledger not_false
  have hmoney := holding_of_pull tok ha hb.pulled
  rw [hbooked] at hmoney
  have hdrop : Book.holding l tok a < Book.holding s.ledger tok a := hless
  by_cases hcond : tok = config.tokenAddress ∧ a = m
  · rw [if_pos hcond] at hmoney
    obtain ⟨rfl, rfl⟩ := hcond
    exact ⟨_, .batch hb.signed hb.group hb.active ⟨hb.token, rfl⟩ hb.distinct
      fun c hc => (hb.upcoming c hc).2, hmoney⟩
  · rw [if_neg hcond] at hmoney
    omega

theorem executeAutoContributions_charge {g count : Nat} (ha : a ≠ contractAddress)
    (h : executeAutoContributions g env s = .ok count t)
    (hless : Book.holding t.ledger tok a < Book.holding s.ledger tok a) :
    ∃ n, Charge env s a tok (.executeAutoContributions g) n ∧
      Book.holding t.ledger tok a = Book.holding s.ledger tok a - n := by
  obtain ⟨grp, config, hgrp, hactive, htoken, hswept⟩ := executeAutoContributions_swept ha h
  rcases hswept with ⟨hsame, -⟩ | ⟨henabled, hfree, hmoney, -⟩
  · rw [hsame tok] at hless
    exact absurd hless (Int.lt_irrefl _)
  · have hexact := hmoney tok
    by_cases htok : tok = config.tokenAddress
    · rw [if_pos htok] at hexact
      exact ⟨_, .sweep henabled hgrp hactive ⟨htoken, htok.symm⟩ hfree, hexact⟩
    · rw [if_neg htok] at hexact
      omega

/-- **EVERY CHARGE IS ONE OF THE FOUR**, and takes exactly what the four say. -/
theorem charge_of_call (ha : a ≠ contractAddress) (h : c.body env s = .ok () t)
    (hless : Book.holding t.ledger tok a < Book.holding s.ledger tok a) :
    ∃ n, Charge env s a tok c n ∧ Book.holding t.ledger tok a = Book.holding s.ledger tok a - n := by
  have hagree := Within.agree_ok (w := c.footprint) h
  have huncharged : ¬ OnlyEscrowPays s t := fun hpays => Int.not_lt.mpr (hpays tok a ha) hless
  cases c with
  | createGroup creator amount duration maxMembers tok' grace order =>
      obtain ⟨n, hn⟩ := quietly_ok.mp h
      exact createGroup_charge hn hless
  | contribute g m amount => exact contribute_charge ha h hless
  | contributeBatch g m cycles => exact contributeBatch_charge ha h hless
  | executeAutoContributions g =>
      obtain ⟨n, hn⟩ := quietly_ok.mp h
      exact executeAutoContributions_charge ha hn hless
  | executePayout g => exact absurd (executePayout_pays (Or.inl ⟨(), h⟩)) huncharged
  | tick g => exact absurd (tick_pays h) huncharged
  | requestRefund g _ _ | emergencyWithdraw g _ | voteDissolve g _ | claimCompletionReward _ g =>
      exact absurd (paysBack_pays (g := g) h rfl) huncharged
  | _ => exact absurd (onlyEscrowPays_of_ledger (hagree.ledger not_false)) huncharged

end Charges

/-! ## The switch-on behind a sweep -/

section Enrolment

variable {s : State} {g : Nat} {a : Address}

/-- The flag comes on by the account's own signed call and by nothing else. -/
theorem autoOn_brought {x : Step} (hoff : ¬ autoOn s g a = true)
    (hon : autoOn (apply x s) g a = true) :
    ∃ env, x = .call env (.enableAutoContribute g a) ∧ a ∈ env.signers := by
  -- the flag changed, so the call wrote it
  have hmoved : (apply x s).persistent (.mbrAuto g a) ≠ s.persistent (.mbrAuto g a) := by
    intro hsame
    exact hoff (by rwa [autoOn, readAt_congr hsame] at hon)
  cases x with
  | expire => exact absurd rfl hmoved
  | external l => exact absurd rfl hmoved
  -- of all calls two write it, and one of these writes it off
  | call env c =>
      rcases commit_eq_or c env s with ⟨t, ht, he⟩ | ⟨-, he⟩
      swap
      · exact absurd (congrArg (fun u => u.persistent (.mbrAuto g a)) he) hmoved
      have hnow : autoOn t g a = true := by
        rwa [show apply (.call env c) s = t from he] at hon
      have hagree := Within.agree_ok (w := c.footprint) ht
      have hmoved' : t.persistent (.mbrAuto g a) ≠ s.persistent (.mbrAuto g a) := by
        rwa [show apply (.call env c) s = t from he] at hmoved
      cases c with
      | enableAutoContribute g' m =>
          obtain ⟨profile, hsigned, -, rfl | rfl⟩ := enableAutoContribute_ok ht
          · by_cases hkey : Key.mbrAuto g a = .mbrAuto g' m
            · obtain ⟨rfl, rfl⟩ := Key.mbrAuto.inj hkey
              exact ⟨env, rfl, hsigned⟩
            · exact absurd (by simp [hkey]) hmoved'
          · exact absurd rfl hmoved'
      | disableAutoContribute g' m =>
          obtain ⟨profile, -, -, rfl | rfl⟩ := disableAutoContribute_ok ht
          · by_cases hkey : Key.mbrAuto g a = .mbrAuto g' m
            · obtain ⟨rfl, rfl⟩ := Key.mbrAuto.inj hkey
              simp [autoOn, readAt] at hnow
            · exact absurd (by simp [hkey]) hmoved'
          · exact absurd rfl hmoved'
      | _ => exact absurd (hagree.persistent _ (Place.other_kind rfl)) hmoved'

end Enrolment

/-- **NO CHARGE WITHOUT CONSENT**: in a run from a state in which nobody has opted in, a
    step that lowers what anybody but the contract holds is one of the four charges and
    takes exactly its amount; and either the account signed it, or it is the sweep of a
    group in which the account switched the sweep on by a call of its own, with the flag
    up at every step since. -/
theorem no_charge_without_consent (s : State) (hs : ∀ g a, s.persistent (.mbrAuto g a) = none)
    (before : List Step) (env : Env) (c : Call) (tok a : Address) (ha : a ≠ contractAddress)
    (hless : Book.holding (apply (.call env c) (run before s)).ledger tok a <
      Book.holding (run before s).ledger tok a) :
    ∃ n, Charge env (run before s) a tok c n ∧
      Book.holding (apply (.call env c) (run before s)).ledger tok a =
        Book.holding (run before s).ledger tok a - n ∧
      (a ∈ env.signers ∨ ∃ g earlier env' since,
        c = .executeAutoContributions g ∧
        before = earlier ++ .call env' (.enableAutoContribute g a) :: since ∧ a ∈ env'.signers ∧
        Along apply (fun _ u => autoOn u g a = true) since
          (run (earlier ++ [.call env' (.enableAutoContribute g a)]) s)) := by
  rcases commit_eq_or c env (run before s) with ⟨t, ht, he⟩ | ⟨-, he⟩
  swap
  · -- a call that fails charges nobody
    rw [show apply (.call env c) (run before s) = run before s from he] at hless
    exact absurd hless (Int.lt_irrefl _)
  rw [show apply (.call env c) (run before s) = t from he] at hless ⊢
  obtain ⟨n, hcharge, hexact⟩ := charge_of_call ha ht hless
  refine ⟨n, hcharge, hexact, ?_⟩
  -- whoever is charged signed, or is swept with the flag on
  cases hcharge with
  | fee hsigned => exact Or.inl hsigned
  | contribution hsigned => exact Or.inl hsigned
  | batch hsigned => exact Or.inl hsigned
  | @sweep g grp config henabled =>
      have hoff : ¬ autoOn s g a = true := by
        simp [autoOn, readAt, hs g a]
      obtain ⟨earlier, x, since, hbefore, hwas, hon, hkept⟩ :=
        exec_brought_last (P := fun u => autoOn u g a = true) hoff henabled
      obtain ⟨env', rfl, hsigned⟩ := autoOn_brought hwas hon
      refine Or.inr ⟨g, earlier, env', since, rfl, hbefore, hsigned, ?_⟩
      rw [run, exec_append]
      exact hkept

/-! A pair, one of whom opts in; somebody else runs the sweep. -/

/-- The first member opts in. -/
def enrolled : List Step := readyToPay ++ [.call trioEnv (.enableAutoContribute 1 ⟨1⟩)]

/-- The second member's environment. -/
def otherEnv : Env := Env.plain 200 [⟨2⟩] second_signs

/-- The theorem where the sweep charges a member who has not signed it. -/
theorem no_charge_without_consent_instance :
    Address.mk 1 ∉ otherEnv.signers ∧
    ∃ n, Charge otherEnv (run enrolled fundedOpen) ⟨1⟩ ⟨9⟩ (.executeAutoContributions 1) n ∧
      Book.holding (apply (.call otherEnv (.executeAutoContributions 1)) (run enrolled fundedOpen)).ledger
        ⟨9⟩ ⟨1⟩ = Book.holding (run enrolled fundedOpen).ledger ⟨9⟩ ⟨1⟩ - n ∧
      ∃ earlier env' since, enrolled = earlier ++ .call env' (.enableAutoContribute 1 ⟨1⟩) :: since ∧
        Address.mk 1 ∈ env'.signers := by
  have hout : Address.mk 1 ∉ otherEnv.signers := by decide
  obtain ⟨n, hcharge, hexact, hsigned | ⟨g, earlier, env', since, hcall, hbefore, hsigned, -⟩⟩ :=
    no_charge_without_consent fundedOpen (fun _ _ => rfl) enrolled otherEnv
      (.executeAutoContributions 1) ⟨9⟩ ⟨1⟩ (by decide) (by decide +kernel)
  · exact absurd hsigned hout
  · obtain rfl := Call.executeAutoContributions.inj hcall
    exact ⟨hout, n, hcharge, hexact, earlier, env', since, hbefore, hsigned⟩

end SaveConsent
