import StellarSave.BackingProofs

/-! # The proof gate — what a verified contribution was verified for

    In a group that asks for proofs, `verify_contribution_proof` checks a
    signature over the group id and the cycle and leaves a flag under the group,
    the cycle and the MEMBER; `contribute_with_proof` asks for the flag.  The
    payload names the group and the cycle in fixed-width bytes, so a proof is good
    for one group and one cycle.  It does not name the member. -/

namespace SaveProofGate

open HostProg Footprint TokenLedger SaveData SaveAdmin SaveContribution SaveCall SaveBacking Trace

/-! ## The payload -/

section Payload

theorem length_toLeBytes (width n : Nat) : (toLeBytes width n).length = width := by
  induction width generalizing n with
  | zero => rfl
  | succ width ih => rw [toLeBytes, List.length_cons, ih]

/-- Bytes of a fixed width determine the number they were taken from. -/
theorem toLeBytes_inj {width n k : Nat} (hn : n < 256 ^ width) (hk : k < 256 ^ width)
    (h : toLeBytes width n = toLeBytes width k) : n = k := by
  induction width generalizing n k with
  | zero =>
      rw [Nat.pow_zero] at hn hk
      omega
  | succ width ih =>
      rw [toLeBytes, toLeBytes, List.cons.injEq] at h
      rw [Nat.pow_succ] at hn hk
      have hdiv : n / 256 = k / 256 :=
        ih (Nat.div_lt_of_lt_mul (by omega)) (Nat.div_lt_of_lt_mul (by omega)) h.2
      omega

/-- **THE PAYLOAD BINDS** the group and the cycle. -/
theorem buildPayload_inj {g g' cycle cycle' : Nat} (hg : g ≤ u64Max) (hg' : g' ≤ u64Max)
    (hc : cycle ≤ u32Max) (hc' : cycle' ≤ u32Max)
    (h : buildPayload g cycle = buildPayload g' cycle') : g = g' ∧ cycle = cycle' := by
  rw [u64Max] at hg hg'
  rw [u32Max] at hc hc'
  obtain ⟨hgroup, hcycle⟩ := List.append_inj h (by rw [length_toLeBytes, length_toLeBytes])
  exact ⟨toLeBytes_inj (by omega) (by omega) hgroup, toLeBytes_inj (by omega) (by omega) hcycle⟩

end Payload

/-! ## Proofs and flags -/

/-- The host's signature check, as a function of key, message and signature. -/
abbrev Verifier := List Nat → List Nat → List Nat → Bool

/-- A signature is accepted for one message only. -/
def Exact (verify : Verifier) : Prop :=
  ∀ key message message' signature, verify key message signature = true →
    verify key message' signature = true → message = message'

/-- The proof has the right length and a key, and signs the group and the cycle. -/
structure Proves (verify : Verifier) (proof : List Nat) (g cycle : Nat) : Prop where
  length : proof.length = 104
  key : proof.take 32 ≠ List.replicate 32 0
  signed : verify (proof.take 32) (buildPayload g cycle) ((proof.drop 32).take 64) = true

/-- **ONE GROUP, ONE CYCLE**: no proof is good for two. -/
theorem Proves.unique {verify : Verifier} (hexact : Exact verify) {proof : List Nat}
    {g g' cycle cycle' : Nat} (hg : g ≤ u64Max) (hg' : g' ≤ u64Max) (hc : cycle ≤ u32Max)
    (hc' : cycle' ≤ u32Max) (h : Proves verify proof g cycle)
    (h' : Proves verify proof g' cycle') : g = g' ∧ cycle = cycle' :=
  buildPayload_inj hg hg' hc hc' (hexact _ _ _ _ h.signed h'.signed)

/-- A flag says that the member has shown a proof for the cycle. -/
def Shown (g cycle : Nat) (m : Address) (s : State) : Prop :=
  readAt Bool s.persistent (.cProof g cycle m) = some true

/-- A step with this signature check. -/
def Checks (verify : Verifier) : Step → State → Prop
  | .call env _, _ => env.ed25519Verify = verify
  | _, _ => True

section Flags

variable {env : Env} {s t : State} {c : Call} {g cycle : Nat} {m : Address} {proof : List Nat}

theorem verifyProof_ok :
    verifyProof proof g cycle env s = .ok true t ↔
      Proves env.ed25519Verify proof g cycle ∧ s = t := by
  rw [verifyProof]
  split_ifs with hlen hkey
  · refine iff_of_false (fun h => ?_) fun h => hlen h.1.length
    cases (pure_ok.mp h).1
  · refine iff_of_false (fun h => ?_) fun h => h.1.key hkey
    cases (pure_ok.mp h).1
  · simp only [ask_bind_ok, demand_bind_ok, pure_ok, true_and]
    exact and_congr_left fun _ => ⟨fun h => ⟨not_not.mp hlen, hkey, h⟩, fun h => h.signed⟩

/-- What a successful verification saw, and what it leaves. -/
theorem verifyContributionProof_ok
    (h : verifyContributionProof g m cycle proof env s = .ok () t) :
    (∃ grp, groupAt s g = some grp ∧ grp.requireContributionProof = true) ∧
      s.persistent (.mbrProf g m) ≠ none ∧ Proves env.ed25519Verify proof g cycle ∧
      t = s.set (.cProof g cycle m) (Codec.encode true) := by
  simp only [verifyContributionProof, getOr_bind_ok, failIf_bind_ok, has_bind_ok] at h
  obtain ⟨grp, hgrp, hgated, hmember, h⟩ := h
  obtain ⟨verified, u, hverified, h⟩ := bind_ok.mp h
  obtain ⟨hyes, h⟩ := failIf_bind_ok.mp h
  rw [Bool.not_eq_false] at hyes
  subst hyes
  obtain ⟨hproves, rfl⟩ := verifyProof_ok.mp hverified
  refine ⟨⟨grp, hgrp, by simpa using hgated⟩, by simpa using hmember, hproves, ?_⟩
  exact (put_ok.mp h).symm

/-- **ONLY A PROOF RAISES A FLAG**: a call that brings a flag in is the
    verification of a proof for that group, cycle and member. -/
theorem flag_raised (h : c.body env s = .ok () t) (hs : ¬ Shown g cycle m s)
    (ht : Shown g cycle m t) :
    ∃ proof, c = .verifyContributionProof g m cycle proof ∧
      Proves env.ed25519Verify proof g cycle := by
  have hagree := (Within.agree_ok (w := c.footprint) h).persistent
  cases c with
  | verifyContributionProof g' m' cycle' proof =>
      obtain ⟨-, -, hproves, rfl⟩ := verifyContributionProof_ok h
      by_cases hkey : Key.cProof g cycle m = .cProof g' cycle' m'
      · cases hkey
        exact ⟨proof, rfl, hproves⟩
      · refine absurd ?_ hs
        rw [Shown, readAt, HostState.set_persistent, if_neg hkey] at ht
        exact ht
  | _ => exact absurd ((readAt_congr (hagree _ (Place.other_kind rfl))).symm.trans ht) hs

end Flags

/-! ## The gate -/

/-- Three of the four ways to contribute never look at the gate. -/
def PassesBy : Call → Prop
  | .contribute _ _ _ | .contributeBatch _ _ _ | .executeAutoContributions _ => True
  | _ => False

section Gate

variable {verify : Verifier} {env : Env} {s t : State} {c : Call} {g cycle : Nat} {m : Address}

/-- Whoever files past the gate has shown a proof. -/
theorem shown_of_filed {grp : SaveData.Group} (h : c.body env s = .ok () t)
    (hc : ¬ PassesBy c) (hgrp : groupAt s g = some grp)
    (hgated : grp.requireContributionProof = true)
    (hnew : t.persistent (.contrib g cycle m) ≠ s.persistent (.contrib g cycle m)) :
    Shown g cycle m s := by
  have hagree := (Within.agree_ok (w := c.footprint) h).persistent
  cases c with
  | contribute g' a amount => exact absurd trivial hc
  | contributeBatch g' a cycles => exact absurd trivial hc
  | executeAutoContributions g' => exact absurd trivial hc
  | contributeWithProof g' a amount =>
      obtain ⟨⟨-, ⟨grp', hgrp', -, -, hshown, -, -⟩, -⟩, grp'', hgrp'', rfl⟩ :=
        contributeWithProof_ok.mp h
      obtain rfl := Option.some.inj (hgrp'.symm.trans hgrp'')
      by_cases hkey : Key.contrib g cycle m = .contrib g' grp'.currentCycle a
      · cases hkey
        obtain rfl := Option.some.inj (hgrp.symm.trans hgrp')
        exact hshown hgated
      · refine absurd ?_ hnew
        simp only [Key.contrib.injEq, not_and] at hkey
        simpa [recorded] using fun hg hcycle ha => absurd ha (hkey hg hcycle)
  | _ => exact absurd (hagree _ (Place.other_kind rfl)) hnew

/-- **EVERY FLAG HAS ITS PROOF**: from a state without flags, a flag found after a
    run was raised by a verification in the run. -/
theorem shown_run (hs : ¬ Shown g cycle m s) {steps : List Step}
    (hsteps : Along apply (Checks verify) steps s) (hshown : Shown g cycle m (run steps s)) :
    ∃ before env' proof after,
      steps = before ++ .call env' (.verifyContributionProof g m cycle proof) :: after ∧
      Succeeds (verifyContributionProof g m cycle proof) env' (run before s) ∧
      Proves verify proof g cycle := by
  obtain ⟨before, x, after, rfl, hbefore, hx⟩ := exec_brought hs hshown
  have hcheck := ((along_append _ _ _ _ _).mp hsteps).2.1
  cases x with
  | call env' c =>
      rcases commit_eq_or c env' (run before s) with ⟨u, hu, he⟩ | ⟨-, he⟩
      · rw [apply, he] at hx
        obtain ⟨proof, rfl, hproves⟩ := flag_raised hu hbefore hx
        exact ⟨before, env', proof, after, rfl, ⟨(), u, hu⟩, hcheck ▸ hproves⟩
      · rw [apply, he] at hx
        exact absurd hx hbefore
  | _ => exact absurd hx hbefore

end Gate

/-- **THE GATE**: take any run, from a state without flags, whose signature check
    accepts a signature for one message only.  A call that files a contribution in
    a group that asks for proofs, other than the three that pass by, comes after
    the verification of a proof for that group and that cycle, for that member;
    and no proof accepted for one group and cycle is accepted for another. -/
theorem filed_after_proof (verify : Verifier) (hexact : Exact verify) (s : State)
    (hs : ∀ g cycle m, ¬ Shown g cycle m s) (steps : List Step)
    (hsteps : Along apply (Checks verify) steps s) :
    (∀ (env : Env) (c : Call) (t : State) (g cycle : Nat) (m : Address) (grp : SaveData.Group),
      c.body env (run steps s) = .ok () t → ¬ PassesBy c →
      groupAt (run steps s) g = some grp → grp.requireContributionProof = true →
      t.persistent (.contrib g cycle m) ≠ (run steps s).persistent (.contrib g cycle m) →
      ∃ before env' proof after,
        steps = before ++ .call env' (.verifyContributionProof g m cycle proof) :: after ∧
        Succeeds (verifyContributionProof g m cycle proof) env' (run before s) ∧
        verify (proof.take 32) (buildPayload g cycle) ((proof.drop 32).take 64) = true) ∧
    ∀ (env env' : Env) (u u' : State) (g g' cycle cycle' : Nat) (m m' : Address)
      (proof : List Nat), env.ed25519Verify = verify → env'.ed25519Verify = verify →
      g ≤ u64Max → g' ≤ u64Max → cycle ≤ u32Max → cycle' ≤ u32Max →
      Succeeds (verifyContributionProof g m cycle proof) env u →
      Succeeds (verifyContributionProof g' m' cycle' proof) env' u' →
      g = g' ∧ cycle = cycle' := by
  constructor
  · intro env c t g cycle m grp h hc hgrp hgated hnew
    have hshown := shown_of_filed h hc hgrp hgated hnew
    obtain ⟨before, env', proof, after, he, hends, hproves⟩ :=
      shown_run (hs g cycle m) hsteps hshown
    exact ⟨before, env', proof, after, he, hends, hproves.signed⟩
  -- one signature proves one thing
  · intro env env' u u' g g' cycle cycle' m m' proof hv hv' hg hg' hc hc' hends hends'
    obtain ⟨⟨⟩, v, hok⟩ := hends
    obtain ⟨⟨⟩, v', hok'⟩ := hends'
    obtain ⟨-, -, hproves, -⟩ := verifyContributionProof_ok hok
    obtain ⟨-, -, hproves', -⟩ := verifyContributionProof_ok hok'
    rw [hv] at hproves
    rw [hv'] at hproves'
    exact hproves.unique hexact hg hg' hc hc' hproves'

/-! Two members of a group that asks for proofs, and one proof. -/

/-- A check that accepts one message: group `1`, cycle `0`. -/
def oneMessage : Verifier := fun _ message _ => message == buildPayload 1 0

/-- Both members sign; the check is the one above. -/
def gateEnv : Env where
  timestamp := 20
  signers := [⟨1⟩, ⟨2⟩]
  prng := 0
  ed25519Verify := oneMessage
  contract_not_signer := by decide

/-- Group `1`, asking for proofs, with two members. -/
def gatedState : State :=
  (((deployed fun _ => none).set (.grp 1)
      (Codec.encode { proofGroup with memberCount := 2, requireContributionProof := true })).set
    (.mbrProf 1 ⟨1⟩) (Codec.encode (MemberProfile.mk ⟨1⟩ 1 0 0 false))).set
    (.mbrProf 1 ⟨2⟩) (Codec.encode (MemberProfile.mk ⟨2⟩ 1 1 0 false))

/-- A key, a signature and a nonce. -/
def someProof : List Nat := List.replicate 104 7

theorem oneMessage_exact : Exact oneMessage := by
  intro key message message' signature h h'
  rw [oneMessage, beq_iff_eq] at h h'
  rw [h, h']

theorem gatedState_unshown (g cycle : Nat) (m : Address) : ¬ Shown g cycle m gatedState := by
  have hnone : gatedState.persistent (.cProof g cycle m) = none := by
    simp [gatedState, deployed]
  intro h
  rw [Shown, readAt, hnone] at h
  cases h

/-- **ONE PROOF, TWO MEMBERS**: what the first member shows, the second shows
    again, and files a contribution on it. -/
theorem proof_shared :
    Exact gateEnv.ed25519Verify ∧
      Succeeds (verifyContributionProof 1 ⟨1⟩ 0 someProof) gateEnv gatedState ∧
      Succeeds (verifyContributionProof 1 ⟨2⟩ 0 someProof) gateEnv gatedState ∧
      ∃ t, (Call.contributeWithProof 1 ⟨2⟩ 100).body gateEnv
          (run [.call gateEnv (.verifyContributionProof 1 ⟨2⟩ 0 someProof)] gatedState) = .ok () t ∧
        gatedState.persistent (.contrib 1 0 ⟨2⟩) = none ∧ t.persistent (.contrib 1 0 ⟨2⟩) ≠ none := by
  refine ⟨oneMessage_exact, ⟨(), _, rfl⟩, ⟨(), _, rfl⟩, _, rfl, rfl, fun h => ?_⟩
  cases h

/-- The theorem for one verification and the contribution after it. -/
theorem filed_after_proof_instance :
    ∃ t, (Call.contributeWithProof 1 ⟨2⟩ 100).body gateEnv
        (run [.call gateEnv (.verifyContributionProof 1 ⟨2⟩ 0 someProof)] gatedState) = .ok () t ∧
      t.persistent (.contrib 1 0 ⟨2⟩) ≠ none ∧
      ∃ before env' proof after,
        [Step.call gateEnv (.verifyContributionProof 1 ⟨2⟩ 0 someProof)]
          = before ++ .call env' (.verifyContributionProof 1 ⟨2⟩ 0 proof) :: after ∧
        Succeeds (verifyContributionProof 1 ⟨2⟩ 0 proof) env' (run before gatedState) ∧
        oneMessage (proof.take 32) (buildPayload 1 0) ((proof.drop 32).take 64) = true := by
  refine ⟨_, rfl, (fun h => by cases h), ?_⟩
  exact (filed_after_proof oneMessage oneMessage_exact gatedState gatedState_unshown
    [.call gateEnv (.verifyContributionProof 1 ⟨2⟩ 0 someProof)] ⟨rfl, trivial⟩).1 gateEnv
    (.contributeWithProof 1 ⟨2⟩ 100) _ 1 0 ⟨2⟩ _ rfl id rfl rfl (fun h => by cases h)

end SaveProofGate
