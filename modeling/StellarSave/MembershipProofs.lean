import StellarSave.DataProofs

/-! # Membership — five copies of who is where

    Who belongs to a group and when they are paid is stored FIVE times: the
    count in the group record, the roster map, the profiles, the eligibility
    positions and the position-to-member index.  The operations here
    (`contract.rs`) each update their own subset of the five. -/

namespace SaveMembership

open HostProg Footprint TokenLedger SaveData

/-! ## Joining and leaving -/

/-- `join_group`. -/
def joinGroup (g : Nat) (member : Address) (referrer : Option Address) : SaveM Unit := do
  requireAuth member
  let grp : Group ← getOr (.grp g) .groupNotFound
  failIf (grp.status ≠ .pending) .invalidState
  let already ← has (.mbrProf g member)
  failIf (already = true) .alreadyMember
  failIf (grp.maxMembers ≤ grp.memberCount) .groupFull
  runIf (grp.invitationOnly = true) (do
    let invitations : List Address ← getD (.grpInv g) []
    failIf (member ∉ invitations) .notInvited)
  let time ← now
  put (.mbrProf g member) (MemberProfile.mk member g grp.memberCount time false)
  let roster : MemberMap ← getD (.grpMbrs g) ∅
  put (.grpMbrs g) (roster.insert grp.memberCount member : MemberMap)
  put (.mbrPElig g member) (U32.mk grp.memberCount)
  put (.grpPosIx g grp.memberCount) member
  let newCount ← okOr (checkedU32 (grp.memberCount + 1)) .overflow
  put (.grp g) { grp with memberCount := newCount }
  onOption referrer (pure ()) fun referrer => put (.mbrRef g member) referrer

/-- `remove_member`: the roster slot removed is the member's payout position. -/
def removeMember (g : Nat) (member : Address) : SaveM Unit := do
  let grp : Group ← getOr (.grp g) .groupNotFound
  requireAuth grp.creator
  let status : GroupStatus ← getD (.grpStat g) .pending
  failIf (status ≠ .pending) .invalidState
  failIf (member = grp.creator) .unauthorized
  let profile : MemberProfile ← getOr (.mbrProf g member) .notMember
  del (.mbrProf g member)
  del (.mbrPElig g member)
  del (.grpPosIx g profile.payoutPosition)
  let roster : MemberMap ← getD (.grpMbrs g) ∅
  put (.grpMbrs g) (roster.erase profile.payoutPosition : MemberMap)
  failIf (grp.memberCount = 0) .overflow
  put (.grp g) { grp with memberCount := grp.memberCount - 1 }

/-! What the two do when they end well. -/

/-- What `join_group` asks of the group and the newcomer. -/
structure JoinOpen (env : Env) (s : State) (g : Nat) (grp : Group) (member : Address) :
    Prop where
  signed : member ∈ env.signers
  group : groupAt s g = some grp
  pending : grp.status = .pending
  newcomer : s.persistent (.mbrProf g member) = none
  room : grp.memberCount < grp.maxMembers
  roster : TypedAt MemberMap s.persistent (.grpMbrs g)
  fits : grp.memberCount + 1 ≤ u32Max

/-- The roster as `unwrap_or` reads it. -/
abbrev rosterAt (s : State) (g : Nat) : MemberMap := (membersAt s g).getD ∅

theorem rosterAt_eq {s : State} {g : Nat} {roster : MemberMap}
    (h : membersAt s g = some roster) : rosterAt s g = roster := by
  show (membersAt s g).getD ∅ = roster
  rw [h]
  rfl

/-- The optional referral entry. -/
def noteReferrer (s : State) (g : Nat) (member : Address) : Option Address → State
  | none => s
  | some referrer => s.set (.mbrRef g member) (Codec.encode referrer)

/-- The state after joining. -/
def joined (s : State) (g : Nat) (grp : Group) (member : Address) (time : Nat)
    (referrer : Option Address) : State :=
  noteReferrer
    (((((s.set (.mbrProf g member)
      (Codec.encode (MemberProfile.mk member g grp.memberCount time false))).set
      (.grpMbrs g)
      (Codec.encode ((rosterAt s g).insert grp.memberCount member : MemberMap))).set
      (.mbrPElig g member) (Codec.encode (U32.mk grp.memberCount))).set
      (.grpPosIx g grp.memberCount) (Codec.encode member)).set
      (.grp g) (Codec.encode { grp with memberCount := grp.memberCount + 1 }))
    g member referrer

/-- What `remove_member` asks. -/
structure RemoveOpen (env : Env) (s : State) (g : Nat) (grp : Group) (member : Address)
    (profile : MemberProfile) : Prop where
  group : groupAt s g = some grp
  signed : grp.creator ∈ env.signers
  status : TypedAt GroupStatus s.persistent (.grpStat g) ∧
    (statusAt s g).getD .pending = .pending
  other : member ≠ grp.creator
  profile : profileAt s g member = some profile
  roster : TypedAt MemberMap s.persistent (.grpMbrs g)
  nonempty : grp.memberCount ≠ 0

/-- The state after removing a member. -/
def removed (s : State) (g : Nat) (grp : Group) (member : Address) (position : Nat) : State :=
  ((((s.remove (.mbrProf g member)).remove (.mbrPElig g member)).remove
    (.grpPosIx g position)).set
    (.grpMbrs g) (Codec.encode ((rosterAt s g).erase position : MemberMap))).set
    (.grp g) (Codec.encode { grp with memberCount := grp.memberCount - 1 })

section JoinAndLeave

variable {env : Env} {s t : State} {g : Nat} {member : Address} {u : Unit}

theorem noteReferrer_persistent {k : Key} (hk : k.kind ≠ .mbrRef) (referrer : Option Address) :
    (noteReferrer s g member referrer).persistent k = s.persistent k := by
  cases referrer with
  | none => rfl
  | some r =>
      refine if_neg fun he => hk ?_
      rw [he]

@[simp] theorem readAt_noteReferrer {α : Type} [Codec Val α] {k : Key} (hk : k.kind ≠ .mbrRef)
    (referrer : Option Address) :
    readAt α (noteReferrer s g member referrer).persistent k = readAt α s.persistent k :=
  readAt_congr (noteReferrer_persistent hk referrer)

theorem joinGroup_ok {referrer : Option Address}
    (h : joinGroup g member referrer env s = .ok u t) :
    ∃ grp, JoinOpen env s g grp member ∧ joined s g grp member env.timestamp referrer = t := by
  simp [joinGroup, typedAt_set_of_ne] at h
  obtain ⟨hsig, grp, hgrp, hpend, hnew, hroom, h⟩ := h
  rcases h with ⟨-, -, -, hmap, hfits, h⟩ | ⟨-, hmap, hfits, h⟩
  all_goals
    refine ⟨grp, ⟨hsig, hgrp, hpend, hnew, hroom, hmap, hfits⟩, ?_⟩
    rcases h with ⟨rfl, rfl⟩ | ⟨r, rfl, rfl⟩
    · rfl
    · rfl

theorem removeMember_ok (h : removeMember g member env s = .ok u t) :
    ∃ grp profile, RemoveOpen env s g grp member profile ∧
      removed s g grp member profile.payoutPosition = t := by
  simp [removeMember, typedAt_remove_of_ne] at h
  obtain ⟨grp, hgrp, hsig, hst, hpend, hother, profile, hprof, hmap, hne, rfl⟩ := h
  exact ⟨grp, profile, ⟨hgrp, hsig, ⟨hst, hpend⟩, hother, hprof, hmap, hne⟩, rfl⟩

end JoinAndLeave

/-! ## Payout positions -/

/-- Exchange two entries; out of range traps. -/
def swap (xs : List Nat) (i j : Nat) : Option (List Nat) := do
  let x ← xs[i]?
  let y ← xs[j]?
  pure ((xs.set i y).set j x)

/-- `shuffle`: from the last index down to `1`. -/
def shuffle (seed : Nat) : Nat → List Nat → Option (List Nat)
  | 0, xs => some xs
  | 1, xs => some xs
  | i + 2, xs => do
      let ys ← swap xs (i + 1) (seed * (i + 2) % (u64Max + 1) % (i + 2))
      shuffle seed (i + 1) ys

/-- `randomize_payout_order`: no signature asked for. -/
def randomizePayoutOrder (g seed : Nat) : SaveM (List Nat) := do
  let _grp : Group ← getOr (.grp g) .groupNotFound
  let drawn ← has (.grpSeq g)
  failIf (drawn = true) .invalidState
  let roster : MemberMap ← getOr (.grpMbrs g) .groupNotFound
  let env ← ask
  let positions ← unwrap (shuffle ((seed + env.prng + env.timestamp + g) % (u64Max + 1))
    roster.members.length (List.range roster.members.length))
  let sequence ← unwrap (positions.mapM fun p => roster.members[p]?)
  put (.grpSeq g) sequence
  pure positions

/-- `AssignmentMode`. -/
inductive AssignmentMode where
  | sequential
  | randomized
  | manual (positions : List Nat)

/-- The positions an assignment mode hands out, in roster order. -/
def chosenPositions (g : Nat) (roster : MemberMap) : AssignmentMode → SaveM (List Nat)
  | .sequential => pure (List.range roster.size)
  | .randomized => do
      let time ← now
      randomizePayoutOrder g time
  | .manual positions => do
      failIf (positions.length ≠ roster.size) .invalidState
      pure positions

/-- One member of the assignment loop. -/
def assignPosition (g : Nat) (positions : List Nat) (idx : Nat) (member : Address) :
    SaveM Nat := do
  let position ← unwrap positions[idx]?
  let profile : MemberProfile ← getOr (.mbrProf g member) .notMember
  put (.mbrProf g member) { profile with payoutPosition := position }
  put (.mbrPElig g member) (U32.mk position)
  put (.grpPosIx g position) member
  pure (idx + 1)

/-- `assign_payout_positions`. -/
def assignPayoutPositions (g : Nat) (caller : Address) (mode : AssignmentMode) :
    SaveM Unit := do
  requireAuth caller
  let grp : Group ← getOr (.grp g) .groupNotFound
  failIf (grp.creator ≠ caller) .unauthorized
  let status : GroupStatus ← getD (.grpStat g) .pending
  failIf (status ≠ .pending) .invalidState
  let roster : MemberMap ← getOr (.grpMbrs g) .groupNotFound
  let positions ← chosenPositions g roster mode
  let _ ← foldEach (assignPosition g positions) 0 roster.members
  pure ()

section Assigning

variable {env : Env} {s t : State} {g : Nat} {caller : Address} {mode : AssignmentMode} {u : Unit}

/-- An assignment: what is checked, the positions chosen, and how they are dealt out. -/
structure Assigns (env : Env) (s : State) (g : Nat) (caller : Address) (mode : AssignmentMode)
    (grp : SaveData.Group) (roster : MemberMap) (positions : List Nat) (v : State) (n : Nat) (t : State) : Prop where
  signed : caller ∈ env.signers
  group : groupAt s g = some grp
  creator : grp.creator = caller
  typed : TypedAt GroupStatus s.persistent (.grpStat g)
  pending : (statusAt s g).getD .pending = .pending
  listed : readAt MemberMap s.persistent (.grpMbrs g) = some roster
  chosen : chosenPositions g roster mode env s = .ok positions v
  dealt : foldEach (assignPosition g positions) 0 roster.members env v = .ok n t

/-- **WHAT ASSIGNING CAN DO**, exactly. -/
theorem assignPayoutPositions_iff : assignPayoutPositions g caller mode env s = .ok u t ↔
    ∃ grp roster positions v n, Assigns env s g caller mode grp roster positions v n t := by
  rw [assignPayoutPositions]
  simp only [requireAuth_bind_ok, getOr_bind_ok, failIf_bind_ok, getD_bind_ok]
  constructor
  · rintro ⟨hsigned, grp, hgrp, hcreator, htyped, hpending, roster, hlisted, h⟩
    obtain ⟨positions, v, hchosen, h⟩ := bind_ok.mp h
    obtain ⟨n, w, hdealt, h⟩ := bind_ok.mp h
    obtain ⟨-, rfl⟩ := pure_ok.mp h
    exact ⟨grp, roster, positions, v, n, hsigned, hgrp, not_not.mp hcreator, htyped, not_not.mp hpending, hlisted,
      hchosen, hdealt⟩
  · rintro ⟨grp, roster, positions, v, n, h⟩
    refine ⟨h.signed, grp, h.group, not_not.mpr h.creator, h.typed, not_not.mpr h.pending, roster, h.listed, ?_⟩
    exact bind_ok.mpr ⟨positions, v, h.chosen, bind_ok.mpr ⟨n, t, h.dealt, rfl⟩⟩

end Assigning

/-! ## Merging -/

/-- `increment_group_id`. -/
def generateNextGroupId : SaveM Nat := do
  let current : U64 ← getD .cntNextG ⟨0⟩
  let next ← okOr (checkedU64 (current.val + 1)) .overflow
  put .cntNextG (U64.mk next)
  pure next

/-- The two rosters under consecutive keys. -/
def combineMembers (xs : List Address) : MemberMap :=
  (xs.zipIdx.foldl (fun m p => m.insert p.2 p.1) (∅ : MemberMap))

/-- One member of a merge: profile and eligibility, not the position index. -/
def mergeMember (mergedId time : Nat) (roster : MemberMap) (position : Nat) : SaveM Unit := do
  let member ← unwrap roster[position]?
  put (.mbrProf mergedId member) (MemberProfile.mk member mergedId position time false)
  put (.mbrPElig mergedId member) (U32.mk position)

/-- `merge_groups`. -/
def mergeGroups (g₁ g₂ : Nat) : SaveM Nat := do
  let grp₁ : Group ← getOr (.grp g₁) .groupNotFound
  let grp₂ : Group ← getOr (.grp g₂) .groupNotFound
  requireAuth grp₁.creator
  let status₁ : GroupStatus ← getD (.grpStat g₁) .pending
  let status₂ : GroupStatus ← getD (.grpStat g₂) .pending
  failIf (status₁ ≠ .pending ∨ status₂ ≠ .pending) .invalidState
  failIf (grp₁.contributionAmount ≠ grp₂.contributionAmount ∨
    grp₁.cycleDuration ≠ grp₂.cycleDuration) .mergeIncompatible
  let roster₁ : MemberMap ← getD (.grpMbrs g₁) ∅
  let roster₂ : MemberMap ← getD (.grpMbrs g₂) ∅
  let balance₁ : I128 ← getD (.grpBal g₁) ⟨0⟩
  let balance₂ : I128 ← getD (.grpBal g₂) ⟨0⟩
  let balance ← okOr (checkedI128 (balance₁.val + balance₂.val)) .overflow
  let mergedId ← generateNextGroupId
  let time ← now
  let maxMembers ← okOr (checkedU32 (grp₁.maxMembers + grp₂.maxMembers)) .overflow
  let merged ← Group.new mergedId grp₁.creator grp₁.contributionAmount grp₁.cycleDuration
    maxMembers (min grp₁.minMembers grp₂.minMembers) time grp₁.gracePeriodSeconds
  let combined := combineMembers (roster₁.members ++ roster₂.members)
  put (.grp mergedId) { merged with memberCount := combined.size }
  put (.grpStat mergedId) GroupStatus.pending
  put (.grpMbrs mergedId) combined
  put (.grpBal mergedId) (I128.mk balance)
  put (.grpMrgF mergedId) (g₁, g₂)
  forEach (mergeMember mergedId time combined) (List.range combined.size)
  put (.grpStat g₁) GroupStatus.cancelled
  put (.grpStat g₂) GroupStatus.cancelled
  pure mergedId

/-- The last group id handed out. -/
abbrev lastId (s : State) : Nat := ((readAt U64 s.persistent .cntNextG).getD ⟨0⟩).val

/-- What `merge_groups` asks of the two groups. -/
structure MergeOpen (env : Env) (s : State) (g₁ g₂ : Nat) (grp₁ grp₂ : Group) : Prop where
  first : groupAt s g₁ = some grp₁
  second : groupAt s g₂ = some grp₂
  signed : grp₁.creator ∈ env.signers
  pending₁ : (statusAt s g₁).getD .pending = .pending
  pending₂ : (statusAt s g₂).getD .pending = .pending
  fresh : lastId s + 1 ≤ u64Max

/-- The merged roster. -/
def mergedRoster (s : State) (g₁ g₂ : Nat) : MemberMap :=
  combineMembers ((rosterAt s g₁).members ++ (rosterAt s g₂).members)

/-- The merged group's record. -/
def mergedGroup (s : State) (g₁ g₂ : Nat) (grp₁ grp₂ : Group) (time : Nat) : Group :=
  { Group.fresh (lastId s + 1) grp₁.creator grp₁.contributionAmount grp₁.cycleDuration
      (grp₁.maxMembers + grp₂.maxMembers) (min grp₁.minMembers grp₂.minMembers) time
      grp₁.gracePeriodSeconds false 0 with
    memberCount := (mergedRoster s g₁ g₂).size }

/-- The state before the members of the merged group are written. -/
def mergeBase (s : State) (g₁ g₂ : Nat) (grp₁ grp₂ : Group) (time : Nat) : State :=
  (((((s.set .cntNextG (Codec.encode (U64.mk (lastId s + 1)))).set
    (.grp (lastId s + 1)) (Codec.encode (mergedGroup s g₁ g₂ grp₁ grp₂ time))).set
    (.grpStat (lastId s + 1)) (Codec.encode GroupStatus.pending)).set
    (.grpMbrs (lastId s + 1)) (Codec.encode (mergedRoster s g₁ g₂))).set
    (.grpBal (lastId s + 1)) (Codec.encode (I128.mk (grpBalAt s g₁ + grpBalAt s g₂)))).set
    (.grpMrgF (lastId s + 1)) (Codec.encode (g₁, g₂))

section Merge

variable {env : Env} {s t : State} {g₁ g₂ n : Nat}

theorem generateNextGroupId_bind_ok {β : Type} {b : β} {f : Nat → SaveM β} :
    (generateNextGroupId >>= f) env s = .ok b t ↔
      TypedAt U64 s.persistent .cntNextG ∧ lastId s + 1 ≤ u64Max ∧
        f (lastId s + 1) env (s.set .cntNextG (Codec.encode (U64.mk (lastId s + 1))))
          = .ok b t := by
  simp [generateNextGroupId]

theorem mergeGroups_ok (h : mergeGroups g₁ g₂ env s = .ok n t) :
    n = lastId s + 1 ∧ ∃ grp₁ grp₂ v, MergeOpen env s g₁ g₂ grp₁ grp₂ ∧
      forEach (mergeMember n env.timestamp (mergedRoster s g₁ g₂))
        (List.range (mergedRoster s g₁ g₂).size) env
        (mergeBase s g₁ g₂ grp₁ grp₂ env.timestamp) = .ok () v ∧
      (v.set (.grpStat g₁) (Codec.encode GroupStatus.cancelled)).set (.grpStat g₂)
        (Codec.encode GroupStatus.cancelled) = t := by
  simp [mergeGroups, generateNextGroupId_bind_ok] at h
  obtain ⟨grp₁, h₁, grp₂, h₂, hsig, -, -, ⟨hp₁, hp₂⟩, -, -, -, -, -, -, -, hfresh, -, -, h⟩ := h
  obtain ⟨⟨⟩, v, hloop, hend⟩ := bind_ok.mp h
  simp only [put_bind_ok, pure_ok] at hend
  obtain ⟨rfl, rfl⟩ := hend
  exact ⟨rfl, grp₁, grp₂, v, ⟨h₁, h₂, hsig, hp₁, hp₂, hfresh⟩, hloop, rfl⟩

end Merge

/-! ## Footprints -/

section Footprints

variable {w : Scope Key}

set_option synthInstance.maxSize 65536 in
instance (g : Nat) (a : Address) (ref : Option Address) :
    Within (scope [.of .mbrProf g, .of .grpMbrs g, .of .mbrPElig g, .of .grpPosIx g, .of .grp g,
      .of .mbrRef g] False False) (joinGroup g a ref) := by
  rw [joinGroup]
  infer_instance

set_option synthInstance.maxSize 8192 in
instance (g : Nat) (a : Address) :
    Within (scope [.of .mbrProf g, .of .grpMbrs g, .of .mbrPElig g, .of .grpPosIx g, .of .grp g]
      False False) (removeMember g a) := by
  rw [removeMember]
  infer_instance

set_option synthInstance.maxSize 512 in
instance (g seed : Nat) [Allows w.persistent (.grpSeq g)] :
    Within w (randomizePayoutOrder g seed) := by
  rw [randomizePayoutOrder]
  infer_instance

instance (g : Nat) (roster : MemberMap) (mode : AssignmentMode)
    [Allows w.persistent (.grpSeq g)] : Within w (chosenPositions g roster mode) := by
  cases mode with
  | sequential =>
      rw [chosenPositions]
      infer_instance
  | randomized =>
      rw [chosenPositions]
      infer_instance
  | manual positions =>
      rw [chosenPositions]
      infer_instance

instance (g : Nat) (positions : List Nat) (idx : Nat) (a : Address)
    [Allows w.persistent (.mbrProf g a)] [Allows w.persistent (.mbrPElig g a)]
    [∀ p, Allows w.persistent (.grpPosIx g p)] :
    Within w (assignPosition g positions idx a) := by
  rw [assignPosition]
  infer_instance

set_option synthInstance.maxSize 2048 in
instance (g : Nat) (a : Address) (mode : AssignmentMode) :
    Within (scope [.of .mbrProf g, .of .mbrPElig g, .of .grpPosIx g, .of .grpSeq g] False False)
      (assignPayoutPositions g a mode) := by
  rw [assignPayoutPositions]
  infer_instance

instance [Allows w.persistent .cntNextG] : Within w generateNextGroupId := by
  rw [generateNextGroupId]
  infer_instance

instance (g time : Nat) (roster : MemberMap) (p : Nat)
    [∀ a, Allows w.persistent (.mbrProf g a)] [∀ a, Allows w.persistent (.mbrPElig g a)] :
    Within w (mergeMember g time roster p) := by
  rw [mergeMember]
  infer_instance

set_option synthInstance.maxSize 1000000 in
instance (g₁ g₂ : Nat) :
    Within (scope [.anywhere .cntNextG, .anywhere .grp, .anywhere .grpStat, .anywhere .grpMbrs,
      .anywhere .grpBal, .anywhere .grpMrgF, .anywhere .mbrProf, .anywhere .mbrPElig]
      False False) (mergeGroups g₁ g₂) := by
  rw [mergeGroups]
  dsimp only
  infer_instance

end Footprints

/-! ## What a merge leaves alone -/

section MergeFrame

variable {env : Env} {s t : State} {g₁ g₂ n : Nat}

/-- A merge writes the new group's entries, the id counter and status keys. -/
theorem mergeGroups_frame (h : mergeGroups g₁ g₂ env s = .ok n t) (k : Key)
    (hgroup : k.group ≠ lastId s + 1) (hkind : k.kind ≠ .cntNextG ∧ k.kind ≠ .grpStat) :
    t.persistent k = s.persistent k := by
  obtain ⟨rfl, grp₁, grp₂, v, -, hloop, rfl⟩ := mergeGroups_ok h
  have hnew : ∀ k' : Key, k'.group = lastId s + 1 → k ≠ k' := by
    rintro k' hk' rfl
    exact hgroup hk'
  have hcounter : k ≠ .cntNextG := by
    rintro rfl
    exact hkind.1 rfl
  have hkey : ∀ j, k ≠ .grpStat j := by
    rintro j rfl
    exact hkind.2 rfl
  have hv : v.persistent k = (mergeBase s g₁ g₂ grp₁ grp₂ env.timestamp).persistent k :=
    (Within.agree_ok (w := scope [.of .mbrProf (lastId s + 1), .of .mbrPElig (lastId s + 1)]
      False False) hloop).persistent k (by simp [hgroup])
  have hbase : (mergeBase s g₁ g₂ grp₁ grp₂ env.timestamp).persistent k = s.persistent k := by
    simp [mergeBase, hcounter, hnew]
  simpa [hkey] using hv.trans hbase

/-- Seating the members and cancelling the sources leaves the rest of the new
    group as it was set up. -/
theorem mergeGroups_base (h : mergeGroups g₁ g₂ env s = .ok n t) :
    ∃ grp₁ grp₂, MergeOpen env s g₁ g₂ grp₁ grp₂ ∧
      ∀ k : Key, k.kind ≠ .mbrProf → k.kind ≠ .mbrPElig → k.kind ≠ .grpStat →
        t.persistent k = (mergeBase s g₁ g₂ grp₁ grp₂ env.timestamp).persistent k := by
  obtain ⟨rfl, grp₁, grp₂, v, hopen, hloop, rfl⟩ := mergeGroups_ok h
  refine ⟨grp₁, grp₂, hopen, fun k hprof helig hstat => ?_⟩
  have hkey : ∀ j, k ≠ .grpStat j := by
    rintro j rfl
    exact hstat rfl
  rw [HostState.set_persistent, if_neg (hkey g₂), HostState.set_persistent, if_neg (hkey g₁)]
  exact (Within.agree_ok (w := scope [.of .mbrProf (lastId s + 1), .of .mbrPElig (lastId s + 1)]
    False False) hloop).persistent k (by simp [hprof, helig])

theorem mergeGroups_roster (h : mergeGroups g₁ g₂ env s = .ok n t) :
    membersAt t (lastId s + 1) = some (mergedRoster s g₁ g₂) := by
  obtain ⟨grp₁, grp₂, -, hbase⟩ := mergeGroups_base h
  rw [membersAt, readAt_congr (hbase _ (by simp) (by simp) (by simp))]
  simp [mergeBase]

theorem mergeGroups_lastId (h : mergeGroups g₁ g₂ env s = .ok n t) : lastId t = lastId s + 1 := by
  obtain ⟨grp₁, grp₂, -, hbase⟩ := mergeGroups_base h
  rw [lastId, readAt_congr (hbase _ (by simp) (by simp) (by simp))]
  simp [mergeBase]

theorem mergeGroups_balance (h : mergeGroups g₁ g₂ env s = .ok n t) :
    grpBalAt t (lastId s + 1) = grpBalAt s g₁ + grpBalAt s g₂ := by
  obtain ⟨grp₁, grp₂, -, hbase⟩ := mergeGroups_base h
  rw [grpBalAt, readAt_congr (hbase _ (by simp) (by simp) (by simp))]
  simp [mergeBase]

end MergeFrame

end SaveMembership
