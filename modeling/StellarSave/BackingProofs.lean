import StellarSave.CallProofs
import Mathlib.Algebra.BigOperators.Group.Finset.Basic
import Mathlib.Tactic.Ring

/-! # Backing — a contribution record should mean money arrived

    Four entry points write contribution records.  For a call from `s` to `t`
    the NEW records are those `t` holds and `s` did not; the call is backed
    when their amounts add up to what the contract's holding of the group's
    token grew by.

    Three of the four always are: each pulls exactly what it records, or traps
    and leaves no record.  `contribute_with_proof` records and never touches
    the token, so an accepted one is never backed. -/

namespace SaveBacking

open HostProg Footprint TokenLedger SaveData SaveContribution SaveCall

/-- Where a contribution record lives: group, cycle, member. -/
abbrev RecordKey := Nat × Nat × Address

/-- The call from `s` to `t` wrote the record at `k`. -/
def NewRecord (s t : State) (k : RecordKey) : Prop :=
  ∃ r, contribAt t k.1 k.2.1 k.2.2 = some r ∧ contribAt s k.1 k.2.1 k.2.2 ≠ some r

/-- The amount recorded at `k`. -/
def recordAmount (t : State) (k : RecordKey) : Int :=
  match contribAt t k.1 k.2.1 k.2.2 with
  | some r => r.amount
  | none => 0

/-- The new records between `s` and `t` add up to `n`. -/
def NewTotal (s t : State) (n : Int) : Prop :=
  ∃ K : Finset RecordKey, (∀ k, k ∈ K ↔ NewRecord s t k) ∧ ∑ k ∈ K, recordAmount t k = n

/-- **BACKED**: the new records add up to the growth of the group's escrow. -/
def Backed (s t : State) (g : Nat) : Prop :=
  NewTotal s t (groupEscrow t g - groupEscrow s g)

/-! ## Accounting for new records -/

/-- The total is determined by the two states. -/
theorem NewTotal.unique {s t : State} {n n' : Int} (h : NewTotal s t n)
    (h' : NewTotal s t n') : n = n' := by
  obtain ⟨K, hK, hn⟩ := h
  obtain ⟨K', hK', hn'⟩ := h'
  have he : K = K' := by
    ext k
    rw [hK, hK']
  rw [← hn, ← hn', he]

/-- No record was lost and the new ones add up to `n`. -/
structure Wrote (s t : State) (n : Int) : Prop where
  total : NewTotal s t n
  keeps : ∀ g c a, t.persistent (.contrib g c a) = none → s.persistent (.contrib g c a) = none

theorem Wrote.refl (s : State) : Wrote s s 0 where
  total := by
    refine ⟨∅, fun k => ?_, Finset.sum_empty⟩
    constructor
    · intro hk
      exact absurd hk (Finset.notMem_empty k)
    · rintro ⟨r, hr, hne⟩
      exact absurd hr hne
  keeps _ _ _ h := h

/-- Only the storage counts. -/
theorem Wrote.congr {s t u : State} {n : Int} (h : Wrote s t n)
    (hu : u.persistent = t.persistent) : Wrote s u n := by
  obtain ⟨⟨K, hK, hn⟩, hkeep⟩ := h
  refine ⟨⟨K, fun k => ?_, ?_⟩, fun g c a ha => hkeep g c a (hu ▸ ha)⟩
  · rw [hK]
    simp only [NewRecord, contribAt]
    rw [hu]
  · rw [← hn]
    simp only [recordAmount, contribAt]
    rw [hu]

/-- **ONE MORE RECORD**: recording into a free slot adds its amount. -/
theorem Wrote.record {s t : State} {n : Int} {g c : Nat} {m : Address}
    (h : Wrote s t n) (hfree : t.persistent (.contrib g c m) = none) (amount : Int) (ts : Nat) :
    Wrote s (recorded t g c m amount ts) (n + amount) := by
  obtain ⟨⟨K, hK, hn⟩, hkeep⟩ := h
  have hnone : contribAt s g c m = none :=
    (readAt_eq_none (typedAt_of_none (hkeep g c m hfree))).mpr (hkeep g c m hfree)
  -- the record is new: it counts for itself
  have hnotin : (g, c, m) ∉ K := by
    rw [hK]
    rintro ⟨r, hr, -⟩
    rw [contribAt, (readAt_eq_none (typedAt_of_none hfree)).mpr hfree] at hr
    cases hr
  -- the other records are as they were
  have hsame : ∀ k : RecordKey, k ≠ (g, c, m) →
      contribAt (recorded t g c m amount ts) k.1 k.2.1 k.2.2 = contribAt t k.1 k.2.1 k.2.2 := by
    rintro ⟨g', c', a⟩ hne
    rw [contribAt_recorded, if_neg]
    rintro ⟨rfl, rfl, rfl⟩
    exact hne rfl
  have hown : contribAt (recorded t g c m amount ts) g c m =
      some (ContributionRecord.mk m g c amount ts) := by
    rw [contribAt_recorded, if_pos ⟨rfl, rfl, rfl⟩]
  constructor
  -- the sum grows by its amount
  · refine ⟨insert (g, c, m) K, fun k => ?_, ?_⟩
    · by_cases hk : k = (g, c, m)
      · subst hk
        simp only [Finset.mem_insert, true_or, true_iff]
        exact ⟨_, hown, by rw [hnone]; exact nofun⟩
      · rw [Finset.mem_insert, or_iff_right hk, hK]
        simp only [NewRecord, hsame k hk]
    · rw [Finset.sum_insert hnotin]
      have hfirst : recordAmount (recorded t g c m amount ts) (g, c, m) = amount := by
        simp only [recordAmount, hown]
      have hrest : ∑ k ∈ K, recordAmount (recorded t g c m amount ts) k = n := by
        rw [← hn]
        refine Finset.sum_congr rfl fun k hk => ?_
        have hne : k ≠ (g, c, m) := fun he => hnotin (he ▸ hk)
        simp only [recordAmount, hsame k hne]
      rw [hfirst, hrest]
      omega
  · intro g' c' a ha
    by_cases hk : Key.contrib g' c' a = Key.contrib g c m
    · rw [hk]
      exact hkeep g c m hfree
    · refine hkeep g' c' a ?_
      simpa [recorded, hk] using ha

/-! ## Each entry point -/

section EntryPoints

variable {env : Env} {s t : State} {g : Nat} {m : Address} {amount : Int} {u : Unit}

/-- Records that arrived together with their money are backed. -/
theorem Wrote.backed {n : Int} {config : TokenConfig} (h : Wrote s t n)
    (hs : tokenAt s g = some config) (ht : tokenAt t g = some config)
    (hn : Book.holding t.ledger config.tokenAddress contractAddress =
      Book.holding s.ledger config.tokenAddress contractAddress + n) : Backed s t g := by
  rw [Backed, groupEscrow_of_token hs, groupEscrow_of_token ht, hn]
  have he : Book.holding s.ledger config.tokenAddress contractAddress + n -
      Book.holding s.ledger config.tokenAddress contractAddress = n := by omega
  rw [he]
  exact h.total

theorem contribute_backed (h : contribute g m amount env s = .ok u t) : Backed s t g := by
  obtain ⟨grp, config, l, hc, rfl⟩ := contribute_ok h
  have hlocked := (Wrote.refl s).congr (u := s.tempSet .guard (Codec.encode (U64.mk 1))) rfl
  have hrec := hlocked.record hc.free amount env.timestamp
  rw [Int.zero_add] at hrec
  refine Wrote.backed (n := amount) (hrec.congr ?_) hc.token ?_ ?_
  · rfl
  · simpa [tokenAt, recorded] using hc.token
  · exact Book.holding_pull hc.pulled hc.can.amount_pos

/-! The batch: its loop fills slots that its checks found free. -/

/-- The recording loop adds one amount for each cycle and moves no token. -/
theorem recordBatch_wrote {time : Nat} {cycles : List Nat} {s₀ : State} {n : Int}
    (h : forEach (fun cycle => do
      let _ ← recordContributionUnchecked g cycle m amount time
      pure ()) cycles env s = .ok u t)
    (hw : Wrote s₀ s n) (hnodup : cycles.Nodup)
    (hfree : ∀ c ∈ cycles, s.persistent (.contrib g c m) = none) :
    Wrote s₀ t (n + amount * cycles.length) ∧ t.ledger = s.ledger ∧
      tokenAt t g = tokenAt s g ∧ (cycles ≠ [] → 0 < amount) := by
  -- each record of the batch adds its own amount
  induction cycles generalizing s n with
  | nil =>
      rw [forEach_nil, pure_ok] at h
      obtain ⟨-, rfl⟩ := h
      exact ⟨by simpa using hw, rfl, rfl, fun hne => absurd rfl hne⟩
  | cons c cycles ih =>
      rw [forEach_cons, bind_bind_ok, recordContributionUnchecked_bind_ok, pure_bind_ok] at h
      obtain ⟨hcan, hrest⟩ := h
      obtain ⟨hc, hnodup'⟩ := List.nodup_cons.mp hnodup
      have hrec := hw.record (hfree c List.mem_cons_self) amount time
      have hfree' : ∀ c' ∈ cycles,
          (recorded s g c m amount time).persistent (.contrib g c' m) = none := by
        intro c' hc'
        have hne : c' ≠ c := fun he => hc (he ▸ hc')
        simpa [recorded, hne] using hfree c' (List.mem_cons_of_mem _ hc')
      obtain ⟨hw', hl, htok, -⟩ := ih hrest hrec hnodup' hfree'
      refine ⟨?_, hl, htok.trans (by simp [recorded]), fun _ => hcan.amount_pos⟩
      have he : n + amount + amount * cycles.length = n + amount * ((c :: cycles).length : Int) := by
        rw [List.length_cons]
        push_cast
        ring
      rwa [he] at hw'

theorem contributeBatch_backed {cycles : List Nat}
    (h : contributeBatch g m cycles env s = .ok u t) : Backed s t g := by
  obtain ⟨grp, config, s₁, l, hbatch, rfl⟩ := contributeBatch_ok h
  obtain ⟨hw, hledger, htok₁, hpos⟩ := recordBatch_wrote hbatch.recorded (Wrote.refl s) hbatch.distinct
    fun c hc => (hbatch.upcoming c hc).2
  have hlen : 0 < grp.contributionAmount * (cycles.length : Int) :=
    Int.mul_pos (hpos hbatch.nonempty) (by
      have := List.length_pos_of_ne_nil hbatch.nonempty
      omega)
  rw [Int.zero_add] at hw
  refine Wrote.backed (hw.congr ?_) hbatch.token ?_ ?_
  · rfl
  · exact htok₁.trans hbatch.token
  · rw [← hledger]
    exact Book.holding_pull hbatch.pulled hlen

/-! The automatic sweep: each member is either skipped or recorded and
    charged at once, so the account balances after every member. -/

/-- Records and money agree so far, counted from `s₀`. -/
structure SweepBalanced (s₀ : State) (g : Nat) (config : TokenConfig) (s : State) : Prop where
  token : tokenAt s g = some config
  wrote : ∃ n, Wrote s₀ s n ∧ Book.holding s.ledger config.tokenAddress contractAddress =
    Book.holding s₀.ledger config.tokenAddress contractAddress + n

theorem autoContributeMember_balanced {s₀ : State} {config : TokenConfig}
    {cycle time executed executed' : Nat}
    (h : autoContributeMember g cycle config.tokenAddress amount time executed m env s
      = .ok executed' t) (hb : SweepBalanced s₀ g config s) : SweepBalanced s₀ g config t := by
  rcases autoContributeMember_ok h with ⟨-, rfl⟩ | ⟨l, hfree, hcan, hl, -, rfl⟩
  · exact hb
  · obtain ⟨htok, n, hw, hn⟩ := hb
    refine ⟨by simpa [tokenAt, recorded] using htok, n + amount, ?_, ?_⟩
    · exact (hw.record hfree amount time).congr rfl
    · have hpull := Book.holding_pull hl hcan.amount_pos
      simp only [HostState.setLedger_ledger]
      rw [hpull, hn]
      omega

theorem executeAutoContributions_backed {n : Nat}
    (h : executeAutoContributions g env s = .ok n t) : Backed s t g := by
  obtain ⟨grp, config, roster, -, -, htok, -, hrun⟩ := executeAutoContributions_ok h
  have hstart : SweepBalanced s g config s := ⟨htok, 0, Wrote.refl s, by omega⟩
  have hend : SweepBalanced s g config t :=
    foldEach_invariant (I := fun _ v => SweepBalanced s g config v)
      (fun a _ _ v _ v' hv hstep => autoContributeMember_balanced hstep hv) hstart hrun
  obtain ⟨htok', k, hw, hk⟩ := hend
  exact hw.backed htok htok' hk

/-! The proof path. -/

/-- What `contribute_with_proof` checks before it records. -/
structure ProofAccepted (env : Env) (s : State) (g : Nat) (m : Address) (amount : Int) :
    Prop where
  signed : m ∈ env.signers
  group : ∃ grp, groupAt s g = some grp ∧ grp.status = .active ∧
    amount = grp.contributionAmount ∧
    (grp.requireContributionProof = true →
      readAt Bool s.persistent (.cProof g grp.currentCycle m) = some true) ∧
    s.persistent (.contrib g grp.currentCycle m) = none ∧
    CanRecord s g grp.currentCycle m amount
  member : s.persistent (.mbrProf g m) ≠ none

theorem contributeWithProof_ok :
    contributeWithProof g m amount env s = .ok u t ↔
      ProofAccepted env s g m amount ∧
        ∃ grp, groupAt s g = some grp ∧
          recorded s g grp.currentCycle m amount env.timestamp = t := by
  -- the total of the cycle is written as a number and read as one
  have htyped : ∀ grp : SaveData.Group,
      TypedAt I128 (recorded s g grp.currentCycle m amount env.timestamp).persistent
        (.cycTotal g grp.currentCycle) := by
    intro grp
    refine typedAt_of_readAt (a := I128.mk (cycTotalAt s g grp.currentCycle + amount)) ?_
    simp [recorded]
  simp [contributeWithProof, htyped]
  constructor
  -- the proof was asked for, or not
  · rintro ⟨hsig, grp, hgrp, hact, rfl, hmem, h⟩
    rcases h with ⟨hreq, htp, hver, ⟨hfree, hcan⟩, rfl⟩ | ⟨hreq, ⟨hfree, hcan⟩, rfl⟩
    · refine ⟨⟨hsig, ⟨grp, hgrp, hact, rfl, fun _ => ?_, hfree, hcan⟩, hmem⟩, grp, hgrp, rfl⟩
      cases hr : readAt Bool s.persistent (.cProof g grp.currentCycle m) with
      | none =>
          rw [hr] at hver
          cases hver
      | some b =>
          rw [hr] at hver
          exact congrArg some hver
    · refine ⟨⟨hsig, ⟨grp, hgrp, hact, rfl, fun h => ?_, hfree, hcan⟩, hmem⟩, grp, hgrp, rfl⟩
      rw [hreq] at h
      cases h
  -- and the other way, with the same two cases
  · rintro ⟨⟨hsig, ⟨grp, hgrp, hact, rfl, hproof, hfree, hcan⟩, hmem⟩, grp', hgrp', rfl⟩
    rw [hgrp] at hgrp'
    obtain rfl := Option.some.inj hgrp'
    refine ⟨hsig, grp, hgrp, hact, rfl, hmem, ?_⟩
    cases hreq : grp.requireContributionProof with
    | false => exact Or.inr ⟨rfl, ⟨hfree, hcan⟩, rfl⟩
    | true =>
        have hp := hproof hreq
        exact Or.inl ⟨rfl, typedAt_of_readAt hp, by rw [hp]; rfl, ⟨hfree, hcan⟩, rfl⟩

/-- An accepted proof contribution records its amount and moves nothing. -/
theorem contributeWithProof_not_backed (h : contributeWithProof g m amount env s = .ok u t) :
    ¬ Backed s t g := by
  obtain ⟨⟨-, ⟨grp, hgrp, -, -, -, hfree, hcan⟩, -⟩, grp', hgrp', rfl⟩ :=
    contributeWithProof_ok.mp h
  rw [hgrp] at hgrp'
  obtain rfl := Option.some.inj hgrp'
  intro hb
  have hrec := (Wrote.refl s).record hfree amount env.timestamp
  have hesc : groupEscrow (recorded s g grp.currentCycle m amount env.timestamp) g =
      groupEscrow s g := groupEscrow_congr (by simp [recorded]) rfl
  rw [Backed, hesc] at hb
  have hzero := hrec.total.unique hb
  have hpos := hcan.amount_pos
  omega

end EntryPoints

/-! ## The four entry points together -/

/-- The group a contribution call is for. -/
def contributesTo : Call → Option Nat
  | .contribute g _ _ => some g
  | .contributeBatch g _ _ => some g
  | .executeAutoContributions g => some g
  | .contributeWithProof g _ _ => some g
  | _ => none

/-- The call is a `contribute_with_proof` that passes all of its own checks. -/
def UnpaidProof (env : Env) (s : State) : Call → Prop
  | .contributeWithProof g m amount => ProofAccepted env s g m amount
  | _ => False

theorem backed_self (s : State) (g : Nat) : Backed s s g := by
  rw [Backed, Int.sub_self]
  exact (Wrote.refl s).total

/-- A contribution call that goes through other than by proof is backed. -/
theorem contribution_call_backed {env : Env} {s t : State} {c : Call} {g : Nat}
    (hc : contributesTo c = some g) (hproof : ∀ m n, c ≠ .contributeWithProof g m n)
    (h : c.body env s = .ok () t) : Backed s t g := by
  cases c with
  | contribute g' m n =>
      obtain rfl := Option.some.inj hc
      exact contribute_backed h
  | contributeBatch g' m cycles =>
      obtain rfl := Option.some.inj hc
      exact contributeBatch_backed h
  | executeAutoContributions g' =>
      obtain rfl := Option.some.inj hc
      obtain ⟨n, hn⟩ := quietly_ok.mp h
      exact executeAutoContributions_backed hn
  | contributeWithProof g' m n =>
      obtain rfl := Option.some.inj hc
      exact absurd rfl (hproof m n)
  | _ => cases hc

/-- **RECORDS ARE BACKED EXACTLY WHEN THE PROOF PATH IS NOT TAKEN**: for every
    state, every environment and every contribution call, the new records add
    up to the growth of the escrow if and only if the call is not an accepted
    `contribute_with_proof`. -/
theorem backed_iff_not_unpaidProof (env : Env) (s : State) (c : Call) (g : Nat)
    (hc : contributesTo c = some g) :
    Backed s (commit c.body env s) g ↔ ¬ UnpaidProof env s c := by
  rcases commit_eq_or c env s with ⟨t, ht, he⟩ | ⟨hfail, he⟩
  · rw [he]
    by_cases hp : ∃ m n, c = .contributeWithProof g m n
    · obtain ⟨m, n, rfl⟩ := hp
      have hacc := (contributeWithProof_ok.mp ht).1
      exact iff_of_false (contributeWithProof_not_backed ht) fun hn => hn hacc
    · have hno : ∀ m n, c ≠ .contributeWithProof g m n := fun m n he => hp ⟨m, n, he⟩
      refine iff_of_true (contribution_call_backed hc hno ht) fun hu => ?_
      cases c with
      | contributeWithProof g' m n =>
          obtain rfl := Option.some.inj hc
          exact hno m n rfl
      | _ => exact hu
  · rw [he]
    refine iff_of_true (backed_self s g) fun hu => hfail ?_
    cases c with
    | contributeWithProof g' m n =>
        obtain ⟨grp, hgrp, -⟩ := hu.group
        exact ⟨(), _, contributeWithProof_ok.mpr ⟨hu, grp, hgrp, rfl⟩⟩
    | _ => exact hu.elim

/-! A started group of one, its creator also its member, and no token in
    sight. -/

/-- The creator's signature at time `20`. -/
def signedEnv : Env := .plain 20 [⟨1⟩] first_signs

/-- Group `1`, active, with one member. -/
def proofGroup : SaveData.Group :=
  { SaveData.Group.fresh 1 ⟨1⟩ 100 1000 2 2 0 0 false 0 with
    memberCount := 1, started := true, startedAt := 10 }

/-- Storage with that group and its member. -/
def proofState : State :=
  ((deployed fun _ => none).set (.grp 1) (Codec.encode proofGroup)).set (.mbrProf 1 ⟨1⟩)
    (Codec.encode (MemberProfile.mk ⟨1⟩ 1 0 0 false))

/-- **A RECORD FROM NOTHING**: the call goes through, records `100`, and the
    contract's balance does not move. -/
theorem contributeWithProof_unbacked :
    contributesTo (.contributeWithProof 1 ⟨1⟩ 100) = some 1 ∧
      ¬ Backed proofState
        (commit (Call.contributeWithProof 1 ⟨1⟩ 100).body signedEnv proofState) 1 := by
  refine ⟨rfl, ?_⟩
  have hrun : ∃ t, contributeWithProof 1 ⟨1⟩ 100 signedEnv proofState = .ok () t := ⟨_, rfl⟩
  obtain ⟨t, ht⟩ := hrun
  rw [commit_of_ok (m := (Call.contributeWithProof 1 ⟨1⟩ 100).body) ht]
  exact contributeWithProof_not_backed ht

/-- A token of which everybody holds a thousand and lets the contract have it. -/
def richToken : Token contractAddress where
  decimals := 7
  balance _ := 1000
  allowance a := if a = contractAddress then 0 else 1000
  balance_nonneg _ := by decide
  allowance_own := if_pos rfl

/-- The same group with that token. -/
def payingState : State :=
  (proofState.set (.grpTok 1) (Codec.encode (TokenConfig.mk ⟨9⟩ 7))).setLedger
    fun tok => if tok = ⟨9⟩ then some richToken else none

/-- The condition at a plain `contribute` that goes through. -/
theorem backed_contribute_instance :
    (∃ t, contribute 1 ⟨1⟩ 100 signedEnv payingState = .ok () t) ∧
      contributesTo (.contribute 1 ⟨1⟩ 100) = some 1 ∧
      (Backed payingState (commit (Call.contribute 1 ⟨1⟩ 100).body signedEnv payingState) 1 ↔
        ¬ UnpaidProof signedEnv payingState (.contribute 1 ⟨1⟩ 100)) :=
  ⟨⟨_, rfl⟩, rfl, backed_iff_not_unpaidProof signedEnv payingState (.contribute 1 ⟨1⟩ 100) 1 rfl⟩

end SaveBacking
