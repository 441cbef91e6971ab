import StellarSave.RecordProofs
import StellarSave.MigrationProofs
import StellarSave.FilingProofs

/-! # Isolation — one group's entries against everybody else's calls

    All groups share one storage.  What keeps them apart is the group id in every
    key, and three places where a call writes under an id it has READ rather than
    been given: the id counter, which hands out fresh ids only, the record, which
    is saved under the id it carries, and the migrations, which go through the ids
    up to a counter nobody writes.  A call that does not name a group therefore
    leaves every one of its entries alone, whatever it is and however it ends.

    The same facts give each id ONE LIFE: issued once, never issued again, and
    with a record whose birth fields stay what they were. -/

namespace SaveIsolation

open HostProg Footprint TokenLedger SaveData SaveContribution SavePayout SaveRefund SaveMembership
open SaveLifecycle SaveAdmin SaveCall SaveStatus SaveStanding SaveRecord SaveMerge SaveMigration Trace
open SaveRoster (trioEnv openGroup)
open SaveRotation (fundedOpen fundedOpen_registry)

/-- The call works on group `g`.  A clone only reads its source. -/
def Concerns (g : Nat) : Call → Prop
  | .updateConfig _ | .migrateStorage _ | .updateContributionLimits _ _ _
  | .createGroup _ _ _ _ _ _ _ | .cloneGroup _ _ _ | .addAllowedToken _ _
  | .removeAllowedToken _ _ => False
  | .mergeGroups g₁ g₂ => g₁ = g ∨ g₂ = g
  | .updateGroup g' _ _ _ | .updateGroupMetadata g' _ _ _ _ | .voteDissolve g' _
  | .proposeContributionChange g' _ | .voteContributionChange g' _ | .assignPayoutPositions g' _ _
  | .randomizePayoutOrder g' _ | .executePayout g' | .tick g' | .bidForPayout g' _ _
  | .pauseGroup g' _ | .resumeGroup g' _ | .raiseDispute g' _ _ | .resolveDispute g' _
  | .cancelGroup g' _ | .setInvitationOnly g' _ | .inviteMember g' _ | .revokeInvitation g' _
  | .deleteGroup g' | .archiveGroup _ g' | .tryAdvanceCycle g' | .rateGroup _ g' _ _
  | .requestRefund g' _ _ | .emitContributionReminders g' _ | .joinGroup g' _ _
  | .removeMember g' _ | .emergencyWithdraw g' _ | .claimCompletionReward _ g'
  | .activateGroup g' _ | .contribute g' _ _ | .contributeBatch g' _ _
  | .executeAutoContributions g' | .contributeWithProof g' _ _ | .enableAutoContribute g' _
  | .disableAutoContribute g' _ | .setContributionProofRequired g' _
  | .verifyContributionProof g' _ _ _ | .setDynamicContributions g' _ | .applyPenalty g' _ _
  | .recoverPenalty g' _ _ _ | .setPenaltyConfig g' _ _ | .extendDeadline _ g' _ _ => g' = g

/-- The step is not a call on `g`. -/
def Elsewhere (g : Nat) (x : Step) (_ : State) : Prop :=
  ∀ env c, x = .call env c → ¬ Concerns g c

/-! ## Side by side -/

section Frames

variable {env : Env} {s t : State} {c : Call} {g n : Nat} {k : Key}

/-- The entries that belong to no group. -/
def sharedKinds : List Kind :=
  [.cntNextG, .cntTotG, .config, .guard, .emrgPause, .storeVer, .alwdToks, .conVer, .usrGrps]

theorem shared_kind (hk : k.group ≠ 0) : k.kind ∉ sharedKinds := by
  cases k <;> simp [sharedKinds] at hk ⊢

/-- A new group's entries are its own and the counter. -/
theorem created_frame {grp : SaveData.Group} {config : TokenConfig} (hk : k.group ≠ lastId s + 1)
    (hcounter : k.kind ≠ .cntNextG) : (created s grp config).persistent k = s.persistent k := by
  have hnew : ∀ k' : Key, k'.group = lastId s + 1 → k ≠ k' := by
    rintro k' hk' rfl
    exact hk hk'
  have hne : k ≠ .cntNextG := by
    rintro rfl
    exact hcounter rfl
  simp [created, hne, hnew]

/-- A merge writes its sources' keys, besides the new group and the counter. -/
theorem mergeGroups_elsewhere {g₁ g₂ : Nat} (h : mergeGroups g₁ g₂ env s = .ok n t)
    (hfresh : k.group ≠ lastId s + 1) (hcounter : k.kind ≠ .cntNextG)
    (h₁ : g₁ ≠ k.group) (h₂ : g₂ ≠ k.group) : t.persistent k = s.persistent k := by
  by_cases hkind : k.kind = .grpStat
  · obtain ⟨rfl, grp₁, grp₂, v, -, hloop, rfl⟩ := mergeGroups_ok h
    have hnew : ∀ k' : Key, k'.group = lastId s + 1 → k ≠ k' := by
      rintro k' hk' rfl
      exact hfresh hk'
    have hne : k ≠ .cntNextG := by
      rintro rfl
      exact hcounter rfl
    have hne₁ : k ≠ .grpStat g₁ := by
      rintro rfl
      exact h₁ rfl
    have hne₂ : k ≠ .grpStat g₂ := by
      rintro rfl
      exact h₂ rfl
    have hv : v.persistent k = (mergeBase s g₁ g₂ grp₁ grp₂ env.timestamp).persistent k :=
      (Within.agree_ok (w := scope [.of .mbrProf (lastId s + 1), .of .mbrPElig (lastId s + 1)]
        False False) hloop).persistent k (by simp [hfresh])
    have hbase : (mergeBase s g₁ g₂ grp₁ grp₂ env.timestamp).persistent k = s.persistent k := by
      simp [mergeBase, hne, hnew]
    simpa [hne₁, hne₂] using hv.trans hbase
  · exact mergeGroups_frame h k hfresh ⟨hcounter, hkind⟩

/-- The migration visits the groups up to the total-groups counter: none. -/
theorem migrate_elsewhere {u : Unit} (hcount : s.persistent .cntTotG = none) (hk : k.group ≠ 0)
    (h : SaveAdmin.migrate env s = .ok u t) : t.persistent k = s.persistent k := by
  have hshared := shared_kind hk
  have hflags : ∀ k' : Key, k'.kind ∈ sharedKinds → k ≠ k' := by
    rintro k' hk' rfl
    exact hshared hk'
  rw [SaveAdmin.migrate] at h
  obtain ⟨-, h⟩ := getD_bind_ok.mp h
  rcases runIf_ok.mp h with ⟨-, hrun⟩ | ⟨-, rfl⟩
  swap
  · rfl
  obtain ⟨⟨⟩, v, hv, hend⟩ := bind_ok.mp hrun
  have hput : t.persistent k = v.persistent k := by
    rw [← put_ok.mp hend, HostState.set_persistent, if_neg (hflags _ (by simp [sharedKinds]))]
  rw [hput]
  -- both flags are put first, and the counter is still not there
  rw [migrateV1ToV2] at hv
  have hv' := ((ensure_bind _ _).trans (ensure_bind _ _)).symm.trans hv
  have hstill : (ensure .guard (Codec.encode false)
      (ensure .emrgPause (Codec.encode false) s)).persistent .cntTotG = none := by
    rw [ensure_other (by simp), ensure_other (by simp), hcount]
  rw [getD_bind_ok] at hv'
  have hloop := hv'.2
  simp only [readAt, hstill, Option.bind_none, Option.getD_none, List.range_zero, forEach_nil,
    pure_ok] at hloop
  rw [← hloop.2, ensure_other (hflags _ (by simp [sharedKinds])),
    ensure_other (hflags _ (by simp [sharedKinds]))]

theorem initializeVersions_run : initializeVersions env s = .ok ()
    (ensure .conVer (Codec.encode (U32.mk 1)) (ensure .storeVer (Codec.encode (U32.mk 2)) s)) :=
  (ensure_bind _ _).trans (ensure_run _)

/-- Setting the configuration writes no entry of any group. -/
theorem updateConfig_elsewhere {config : ContractConfig} {u : Unit}
    (hcount : s.persistent .cntTotG = none) (hk : k.group ≠ 0)
    (h : updateConfig config env s = .ok u t) : t.persistent k = s.persistent k := by
  have hshared := shared_kind hk
  have hflags : ∀ k' : Key, k'.kind ∈ sharedKinds → k ≠ k' := by
    rintro k' hk' rfl
    exact hshared hk'
  simp only [updateConfig, failIf_bind_ok, getOpt_bind_ok] at h
  obtain ⟨-, -, h⟩ := h
  obtain ⟨⟨⟩, v, hinit, hrest⟩ := bind_ok.mp h
  obtain ⟨⟨⟩, w, hmigrate, hput⟩ := bind_ok.mp hrest
  rw [← put_ok.mp hput, HostState.set_persistent, if_neg (hflags _ (by simp [sharedKinds]))]
  rcases onOption_ok.mp hinit with ⟨-, hfirst⟩ | ⟨current, -, hauth⟩
  · -- the first configuration also puts the two versions
    obtain ⟨-, hversions⟩ := requireAuth_bind_ok.mp hfirst
    obtain ⟨-, rfl⟩ := Outcome.ok.inj (initializeVersions_run.symm.trans hversions)
    rw [migrate_elsewhere ?_ hk hmigrate, ensure_other (hflags _ (by simp [sharedKinds])),
      ensure_other (hflags _ (by simp [sharedKinds]))]
    rw [ensure_other (by simp), ensure_other (by simp), hcount]
  · obtain ⟨-, rfl⟩ := requireAuth_ok.mp hauth
    exact migrate_elsewhere hcount hk hmigrate

/-- **WHAT A CALL LEAVES ALONE**: every entry of every issued group it does not name. -/
theorem call_elsewhere (hreg : Registry s) (hcount : s.persistent .cntTotG = none)
    (hk : k.group ≠ 0) (hissued : k.group ≤ lastId s) (hc : ¬ Concerns k.group c)
    (h : c.body env s = .ok () t) : t.persistent k = s.persistent k := by
  have hagree := Within.agree_ok (w := c.footprint) h
  have hshared := shared_kind hk
  have hfresh : k.group ≠ lastId s + 1 := by omega
  have hcounter : k.kind ≠ .cntNextG := fun he => hshared (by simp [he, sharedKinds])
  have hrecord : k.kind = .grp → k = .grp k.group := by
    intro he
    cases k <;> simp at he ⊢
  -- most calls write to their own groups by their footprint
  cases c with
  | createGroup creator amount duration maxMembers tok grace order =>
      obtain ⟨n, hn⟩ := quietly_ok.mp h
      obtain ⟨-, rounded, decimals, l, rfl⟩ := createGroup_ok hn
      exact created_frame hfresh hcounter
  | cloneGroup caller g' o =>
      obtain ⟨n, hn⟩ := quietly_ok.mp h
      obtain ⟨-, amount, duration, maxMembers, minMembers, grace, config, rfl⟩ := cloneGroup_ok hn
      exact created_frame hfresh hcounter
  | mergeGroups g₁ g₂ =>
      obtain ⟨n, hn⟩ := quietly_ok.mp h
      exact mergeGroups_elsewhere hn hfresh hcounter (fun he => hc (Or.inl he)) fun he => hc (Or.inr he)
  | updateConfig config => exact updateConfig_elsewhere hcount hk h
  | migrateStorage caller =>
      obtain ⟨⟨⟩, v, hadmin, hrun⟩ := bind_ok.mp h
      obtain rfl := Within.eq_of_ok hadmin
      exact migrate_elsewhere hcount hk hrun
  | updateContributionLimits _ _ _ | addAllowedToken _ _ | removeAllowedToken _ _ =>
      refine hagree.persistent k (Place.not_covered ?_ k rfl (List.mem_singleton_self k.kind))
      rintro p hp
      obtain rfl := List.mem_singleton.mp hp
      exact fun he => hshared (by simp [← List.mem_singleton.mp he, sharedKinds])
  | pauseGroup g' a | resumeGroup g' a =>
      by_cases hkind : k.kind = .grp
      · rw [hrecord hkind]
        exact switchPause_other hreg h fun he => hc he.symm
      · refine hagree.persistent k (Place.not_covered ?_ k rfl (List.mem_singleton_self k.kind))
        simp [Place.Spares, Ne.symm hkind, show g' ≠ k.group from hc]
  -- a payout writes the guard, which is of no group
  | executePayout g' =>
      by_cases hkind : k.kind = .grp
      · rw [hrecord hkind]
        exact executePayout_groups (hreg.own g') (Or.inl ⟨(), h⟩) fun he => hc he.symm
      · refine hagree.persistent k (Place.not_covered ?_ k rfl (List.mem_singleton_self k.kind))
        simp [Place.Spares, Ne.symm hkind, show g' ≠ k.group from hc]
  | tick g' =>
      by_cases hkind : k.kind = .grp
      · rw [hrecord hkind]
        exact tick_groups hreg h fun he => hc he.symm
      · refine hagree.persistent k (Place.not_covered ?_ k rfl (List.mem_singleton_self k.kind))
        simp [Place.Spares, Ne.symm hkind, show g' ≠ k.group from hc]
  | _ =>
      refine hagree.persistent k (Place.not_covered ?_ k rfl (List.mem_singleton_self k.kind))
      have hne := hc
      simp only [Concerns] at hne
      simp [Place.Spares, hne]

end Frames

/-- What the frame of a call needs of the state: an orderly registry and no
    total-groups counter. -/
structure Shared (s : State) : Prop where
  registry : Registry s
  uncounted : s.persistent .cntTotG = none

section Steps

variable {s : State} {x : Step} {k : Key}

theorem shared_deployed (l : Ledger) : Shared (deployed l) := ⟨registry_deployed l, rfl⟩

theorem shared_apply (x : Step) (s : State) (hs : Shared s) : Shared (apply x s) :=
  ⟨registry_apply x s hs.registry,
    (persistent_apply (fun c => by cases c <;> exact Place.other_kind rfl) x s).trans hs.uncounted⟩

theorem lastId_apply (hs : Registry s) : lastId s ≤ lastId (apply x s) := by
  cases x with
  | call env c =>
      rcases commit_eq_or c env s with ⟨t, ht, he⟩ | ⟨-, he⟩
      · rw [show apply (.call env c) s = t from he]
        exact (grows_step hs ht).last
      · rw [show apply (.call env c) s = s from he]
  | expire => exact Nat.le_refl _
  | external l => exact Nat.le_refl _

theorem apply_elsewhere (hs : Shared s) (hk : k.group ≠ 0) (hissued : k.group ≤ lastId s)
    (hx : Elsewhere k.group x s) : (apply x s).persistent k = s.persistent k := by
  cases x with
  | call env c =>
      rcases commit_eq_or c env s with ⟨t, ht, he⟩ | ⟨-, he⟩
      · rw [show apply (.call env c) s = t from he]
        exact call_elsewhere hs.registry hs.uncounted hk hissued (hx env c rfl) ht
      · rw [show apply (.call env c) s = s from he]
  | expire => rfl
  | external l => rfl

end Steps

/-- **ISOLATION**: a run that makes no call on an issued group leaves every entry of that
    group as it is, and so leaves the group where it was for every later reader. -/
theorem group_isolated (s : State) (hs : Shared s) (k : Key) (hk : k.group ≠ 0)
    (hissued : k.group ≤ lastId s) (steps : List Step)
    (hsteps : Along apply (Elsewhere k.group) steps s) :
    (run steps s).persistent k = s.persistent k := by
  refine (exec_invariant (I := fun t => Shared t ∧ k.group ≤ lastId t ∧
    t.persistent k = s.persistent k) ?_ ⟨hs, hissued, rfl⟩ hsteps).2.2
  rintro x t hx ⟨ht, hlast, hsame⟩
  exact ⟨shared_apply x t ht, hlast.trans (lastId_apply ht.registry),
    (apply_elsewhere ht hk hlast hx).trans hsame⟩

/-! One group is created, cloned, and the clone made a closed one. -/

/-- The only token, of seven decimals. -/
def plainLedger : Ledger := fun tok => if tok = ⟨9⟩ then some (heldToken 0) else none

def founds : List Step :=
  [.call trioEnv (.createGroup ⟨1⟩ 100000 100 3 ⟨9⟩ 0 .sequential)]

def aroundIt : List Step :=
  [.call trioEnv (.cloneGroup ⟨1⟩ 1 ⟨none, none, none, none, none, none⟩),
    .call trioEnv (.setInvitationOnly 2 true), .expire]

theorem founded_shared : Shared (run founds (deployed plainLedger)) :=
  exec_invariant_always shared_apply (shared_deployed plainLedger) founds

/-- The theorem for the record of the first group. -/
theorem group_isolated_instance :
    Shared (run founds (deployed plainLedger)) ∧ 1 ≤ lastId (run founds (deployed plainLedger)) ∧
      (groupAt (run aroundIt (run founds (deployed plainLedger))) 2).map Group.invitationOnly = some true ∧
      (run aroundIt (run founds (deployed plainLedger))).persistent (.grp 1) =
        (run founds (deployed plainLedger)).persistent (.grp 1) := by
  have hissued : 1 ≤ lastId (run founds (deployed plainLedger)) := by decide +kernel
  refine ⟨founded_shared, hissued, by decide +kernel, ?_⟩
  refine group_isolated _ founded_shared (.grp 1) Nat.one_ne_zero hissued aroundIt ⟨?_, ?_, ?_, trivial⟩
  · rintro env c hc hon
    cases hc
    exact hon
  · rintro env c hc hon
    cases hc
    exact absurd (show 2 = 1 from hon) (by decide)
  · rintro env c hc
    cases hc

/-! ## One life -/

/-- What a record keeps of an earlier record of the same group. -/
structure Descends (grp grp' : SaveData.Group) : Prop where
  id : grp'.id = grp.id
  creator : grp'.creator = grp.creator
  createdAt : grp'.createdAt = grp.createdAt
  payoutOrder : grp'.payoutOrder = grp.payoutOrder
  minMembers : grp'.minMembers = grp.minMembers
  gracePeriodSeconds : grp'.gracePeriodSeconds = grp.gracePeriodSeconds
  penalty : grp'.penaltyEnabled = grp.penaltyEnabled ∧ grp'.penaltyAmount = grp.penaltyAmount
  rewardPool : grp'.rewardPool = grp.rewardPool
  cycle : grp.currentCycle ≤ grp'.currentCycle
  archived : grp.archived = true → grp'.archived = true
  started : grp.started = true → grp'.started = true ∧ grp'.startedAt = grp.startedAt

/-- The calls that end a cycle of `g`. -/
def advances (g : Nat) : Step → Bool
  | .call _ (.executePayout g') | .call _ (.tick g') | .call _ (.tryAdvanceCycle g') => g' = g
  | _ => false

section Lives

variable {env : Env} {s t : State} {c : Call} {x : Step} {g : Nat} {grp grp' : SaveData.Group}

theorem Descends.refl (grp : SaveData.Group) : Descends grp grp :=
  ⟨rfl, rfl, rfl, rfl, rfl, rfl, ⟨rfl, rfl⟩, rfl, Nat.le_refl _, fun h => h, fun h => ⟨h, rfl⟩⟩

theorem Descends.trans {grp'' : SaveData.Group} (h : Descends grp grp') (h' : Descends grp' grp'') :
    Descends grp grp'' where
  id := h'.id.trans h.id
  creator := h'.creator.trans h.creator
  createdAt := h'.createdAt.trans h.createdAt
  payoutOrder := h'.payoutOrder.trans h.payoutOrder
  minMembers := h'.minMembers.trans h.minMembers
  gracePeriodSeconds := h'.gracePeriodSeconds.trans h.gracePeriodSeconds
  penalty := ⟨h'.penalty.1.trans h.penalty.1, h'.penalty.2.trans h.penalty.2⟩
  rewardPool := h'.rewardPool.trans h.rewardPool
  cycle := h.cycle.trans h'.cycle
  archived := fun ha => h'.archived (h.archived ha)
  started := fun hs =>
    ⟨(h'.started (h.started hs).1).1, (h'.started (h.started hs).1).2.trans (h.started hs).2⟩

/-- An advance is a descent of one cycle. -/
theorem descends_advanced (grp : SaveData.Group) : Descends grp grp.advanced := by
  have hcycle := Group.advanced_currentCycle grp
  rw [Group.advanced] at hcycle ⊢
  by_cases hdone : ({ grp with currentCycle := grp.currentCycle + 1 } : SaveData.Group).isComplete
  · simp only [hdone, if_true] at hcycle ⊢
    exact ⟨rfl, rfl, rfl, rfl, rfl, rfl, ⟨rfl, rfl⟩, rfl, Nat.le_succ _, fun h => h, fun h => ⟨h, rfl⟩⟩
  · simp only [hdone] at hcycle ⊢
    exact ⟨rfl, rfl, rfl, rfl, rfl, rfl, ⟨rfl, rfl⟩, rfl, Nat.le_succ _, fun h => h, fun h => ⟨h, rfl⟩⟩

/-- **THE TABLE DESCENDS**: each line keeps what is fixed, and advances by one cycle at most,
    by a call that ends one. -/
theorem rewrites_descend (h : c.body env s = .ok () t) (hgrp : groupAt s g = some grp)
    (hrew : Rewrites g grp c grp') :
    Descends grp grp' ∧
      grp'.currentCycle ≤ grp.currentCycle + if advances g (.call env c) = true then 1 else 0 := by
  cases hrew with
  | payout =>
      have hadv := descends_advanced grp
      refine ⟨⟨hadv.id, hadv.creator, hadv.createdAt, hadv.payoutOrder, hadv.minMembers,
        hadv.gracePeriodSeconds, hadv.penalty, hadv.rewardPool, hadv.cycle, hadv.archived,
        hadv.started⟩, ?_⟩
      simp [advances, Group.advanced_currentCycle]
  | tick | advance =>
      refine ⟨descends_advanced grp, ?_⟩
      simp [advances, Group.advanced_currentCycle]
  | activate a time =>
      -- only a group that has not started is started
      obtain ⟨grp', hgrp', -, -, hstarted, -⟩ := activateGroup_ok h
      obtain rfl := Option.some.inj (hgrp.symm.trans hgrp')
      refine ⟨⟨rfl, rfl, rfl, rfl, rfl, rfl, ⟨rfl, rfl⟩, rfl, Nat.le_refl _, fun h => h, ?_⟩,
        Nat.le_add_right _ _⟩
      intro hwas
      rw [hstarted] at hwas
      cases hwas
  | archive a =>
      exact ⟨⟨rfl, rfl, rfl, rfl, rfl, rfl, ⟨rfl, rfl⟩, rfl, Nat.le_refl _, fun _ => rfl,
        fun h => ⟨h, rfl⟩⟩, Nat.le_add_right _ _⟩
  | _ =>
      exact ⟨⟨rfl, rfl, rfl, rfl, rfl, rfl, ⟨rfl, rfl⟩, rfl, Nat.le_refl _, fun h => h,
        fun h => ⟨h, rfl⟩⟩, Nat.le_add_right _ _⟩

/-- One step of an issued group's life. -/
theorem life_step (hreg : Registry s) (hissued : g ≤ lastId s)
    (hgrp' : groupAt (apply x s) g = some grp') :
    ∃ grp, groupAt s g = some grp ∧ Descends grp grp' ∧
      grp'.currentCycle ≤ grp.currentCycle + if advances g x = true then 1 else 0 := by
  cases x with
  | call env c =>
      rcases commit_eq_or c env s with ⟨t, ht, he⟩ | ⟨-, he⟩
      · rw [show apply (.call env c) s = t from he] at hgrp'
        rcases record_rewritten hreg ht g grp' hgrp' with ⟨grp, hgrp, rfl | hrew⟩ | ⟨hfresh, -⟩
        · exact ⟨_, hgrp, Descends.refl _, Nat.le_add_right _ _⟩
        · exact ⟨grp, hgrp, rewrites_descend ht hgrp hrew⟩
        · omega
      · rw [show apply (.call env c) s = s from he] at hgrp'
        exact ⟨grp', hgrp', Descends.refl _, Nat.le_add_right _ _⟩
  | expire => exact ⟨grp', hgrp', Descends.refl _, Nat.le_add_right _ _⟩
  | external l => exact ⟨grp', hgrp', Descends.refl _, Nat.le_add_right _ _⟩

end Lives

/-- **ONE LIFE FOR EACH ID**: an id that has been issued stays issued, and a record found
    under it later descends from the one found there now: same creator, same birth, same
    fixed terms, no cycle back, started and archived for good, and no more cycles on than
    calls that end one.  A group without a record never has one again. -/
theorem one_life (s : State) (g : Nat) (hreg : Registry s) (hissued : g ≤ lastId s)
    (steps : List Step) :
    g ≤ lastId (run steps s) ∧
      ∀ grp', groupAt (run steps s) g = some grp' →
        ∃ grp, groupAt s g = some grp ∧ Descends grp grp' ∧
          grp'.currentCycle ≤ grp.currentCycle + steps.countP (advances g) := by
  induction steps generalizing s with
  | nil => exact ⟨hissued, fun grp' h => ⟨grp', h, Descends.refl _, Nat.le_add_right _ _⟩⟩
  | cons x xs ih =>
      have hlast := lastId_apply (x := x) hreg
      obtain ⟨hend, hlife⟩ := ih (apply x s) (registry_apply x s hreg) (hissued.trans hlast)
      refine ⟨hend, fun grp' hgrp' => ?_⟩
      obtain ⟨mid, hmid, hdesc, hpace⟩ := hlife grp' hgrp'
      obtain ⟨grp, hgrp, hfirst, hone⟩ := life_step hreg hissued hmid
      refine ⟨grp, hgrp, hfirst.trans hdesc, ?_⟩
      rw [List.countP_cons]
      omega

/-- The theorem where a member joins the pair. -/
theorem one_life_joined :
    Registry fundedOpen ∧ 1 ≤ lastId fundedOpen ∧
      ∃ grp', groupAt (run [.call trioEnv (.joinGroup 1 ⟨1⟩ none)] fundedOpen) 1 = some grp' ∧
        Descends openGroup grp' := by
  obtain ⟨grp', hgrp'⟩ : ∃ grp', groupAt (run [.call trioEnv (.joinGroup 1 ⟨1⟩ none)] fundedOpen) 1
      = some grp' := ⟨_, rfl⟩
  obtain ⟨grp, hgrp, hdesc, -⟩ := (one_life fundedOpen 1 fundedOpen_registry (Nat.le_refl 1)
    [.call trioEnv (.joinGroup 1 ⟨1⟩ none)]).2 grp' hgrp'
  obtain rfl := Option.some.inj (hgrp.symm.trans (rfl : groupAt fundedOpen 1 = some openGroup))
  exact ⟨fundedOpen_registry, Nat.le_refl 1, grp', hgrp', hdesc⟩

end SaveIsolation
