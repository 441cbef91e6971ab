import Mathlib
import StellarSave.RosterProofs

/-! # Draws — one permutation, read in two directions

    `assign_payout_positions` with `Randomized` (`contract.rs`).  The drawn
    positions are used twice: as indices into the member list, which gives the
    stored payout sequence, and as the position of each member in turn.  The first
    says who is paid when, the second when each is paid. -/

namespace SaveDraw

open HostProg Footprint TokenLedger SaveData SaveMembership SaveRoster

/-- The order that is drawn for `n` members: the seed is the time, and it is
    salted with the time again. -/
def drawn (env : Env) (g n : Nat) : Option (List Nat) :=
  shuffle ((env.timestamp + env.prng + env.timestamp + g) % (u64Max + 1)) n (List.range n)

/-- Read in both directions the order is the same. -/
def SelfInverse (positions : List Nat) : Prop :=
  ∀ k p : Nat, positions[k]? = some p → positions[p]? = some k

/-- The positions are all of them, each once, and the stored sequence names for
    each of them the member who has it. -/
structure OneOrder (t : State) (g : Nat) : Prop where
  permuted : ((rosterAt t g).members.map (seatOf t g)).Perm ((List.range (rosterAt t g).size).map some)
  sequence : ∃ sequence, readAt (List Address) t.persistent (.grpSeq g) = some sequence ∧
    ∀ k, k < (rosterAt t g).size → ∃ a, sequence[k]? = some a ∧ seatOf t g a = some k

/-- What is collected from a list stands where it was looked up. -/
theorem getElem?_mapM {f : Nat → Option Address} {ps : List Nat} {xs : List Address}
    (h : ps.mapM f = some xs) (k : Nat) : xs[k]? = ps[k]?.bind f := by
  induction ps generalizing xs k with
  | nil =>
      obtain rfl := Option.some.inj h
      rfl
  | cons p ps ih =>
      simp only [List.mapM_cons, Option.bind_eq_bind, Option.bind_eq_some_iff, Option.pure_def,
        Option.some.injEq] at h
      obtain ⟨a, ha, ys, hys, rfl⟩ := h
      cases k with
      | zero => exact ha.symm
      | succ k => exact ih hys k

section

variable {env : Env} {s t : State} {g : Nat} {caller : Address} {u : Unit}

/-- What a draw stores: for each place the member whose index was drawn. -/
theorem randomizePayoutOrder_drawn {positions : List Nat}
    (h : randomizePayoutOrder g env.timestamp env s = .ok positions t) :
    drawn env g (rosterAt s g).size = some positions ∧ ∃ sequence : List Address,
      s.set (.grpSeq g) (Codec.encode sequence) = t ∧
      ∀ k : Nat, sequence[k]? = positions[k]?.bind fun p => (rosterAt s g).members[p]? := by
  simp only [randomizePayoutOrder, getOr_bind_ok, has_bind_ok, failIf_bind_ok, ask_bind_ok,
    unwrap_bind_ok, put_bind_ok, pure_ok] at h
  obtain ⟨_, -, -, roster, hroster, positions', hshuffle, sequence, hsequence, rfl, rfl⟩ := h
  rw [rosterAt_eq hroster]
  refine ⟨?_, sequence, rfl, getElem?_mapM hsequence⟩
  rw [drawn, ← length_members]
  exact hshuffle

/-- The random mode taken apart. -/
theorem assignRandomized_ok (h : assignPayoutPositions g caller .randomized env s = .ok u t) :
    ∃ (positions : List Nat) (sequence : List Address) (n : Nat),
      drawn env g (rosterAt s g).size = some positions ∧
      (∀ k : Nat, sequence[k]? = positions[k]?.bind fun p => (rosterAt s g).members[p]?) ∧
      foldEach (assignPosition g positions) 0 (rosterAt s g).members env
        (s.set (.grpSeq g) (Codec.encode sequence)) = .ok n t := by
  obtain ⟨grp, roster, positions, v, n, h⟩ := assignPayoutPositions_iff.mp h
  obtain rfl := rosterAt_eq h.listed
  obtain ⟨hdrawn, sequence, rfl, hsequence⟩ := randomizePayoutOrder_drawn (now_bind_ok.mp h.chosen)
  exact ⟨positions, sequence, n, hdrawn, hsequence, h.dealt⟩

/-- The members sit where the list of positions says. -/
theorem map_seatOf {positions : List Nat} {members : List Address} {v : State}
    (hseats : Reseated g members positions v t) (hlength : positions.length = members.length) :
    members.map (seatOf t g) = positions.map some := by
  refine List.ext_getElem? fun i => ?_
  rw [List.getElem?_map, List.getElem?_map]
  cases ha : members[i]? with
  | none =>
      rw [List.getElem?_eq_none_iff] at ha
      rw [List.getElem?_eq_none_iff.mpr (hlength.trans_le ha)]
      rfl
  | some a =>
      have hlt : i < positions.length := by
        rw [hlength]
        exact (List.getElem?_eq_some_iff.mp ha).1
      have hp : positions[i]? = some positions[i] := List.getElem?_eq_getElem hlt
      obtain ⟨profile, -, hprofile, -⟩ := hseats.seat i a positions[i] ha hp
      rw [hp]
      exact congrArg some (seatOf_of_profile hprofile)

/-- Who is drawn for a place sits where the order sends that index. -/
theorem sequence_sent {members sequence : List Address} {positions : List Nat}
    (hperm : positions.Perm (List.range members.length))
    (hsequence : ∀ k : Nat, sequence[k]? = positions[k]?.bind fun p => members[p]?)
    (hseats : members.map (seatOf t g) = positions.map some) {k p : Nat} (hp : positions[k]? = some p) :
    ∃ a, sequence[k]? = some a ∧ seatOf t g a = positions[p]? := by
  have hlt : p < members.length := List.mem_range.mp (hperm.mem_iff.mp (List.mem_of_getElem? hp))
  have hlength : positions.length = members.length := by
    rw [hperm.length_eq, List.length_range]
  have hplace := congrArg (fun xs : List (Option Nat) => xs[p]?) hseats
  simp only [List.getElem?_map, List.getElem?_eq_getElem hlt,
    List.getElem?_eq_getElem (hlength.symm ▸ hlt), Option.map_some, Option.some.injEq] at hplace
  refine ⟨members[p], ?_, ?_⟩
  · rw [hsequence, hp]
    exact List.getElem?_eq_getElem hlt
  · rw [hplace, List.getElem?_eq_getElem (hlength.symm ▸ hlt)]

/-- **WHAT A DRAW LEAVES**: a permutation, the sequence that is read off it, and, where
    nobody is listed twice, everybody in the drawn place. -/
theorem assignRandomized_leaves (h : assignPayoutPositions g caller .randomized env s = .ok u t) :
    ∃ (positions : List Nat) (sequence : List Address),
      drawn env g (rosterAt s g).size = some positions ∧
      positions.Perm (List.range (rosterAt s g).members.length) ∧
      readAt (List Address) t.persistent (.grpSeq g) = some sequence ∧
      (∀ k : Nat, sequence[k]? = positions[k]?.bind fun p => (rosterAt s g).members[p]?) ∧
      ((rosterAt s g).members.Nodup →
        (rosterAt s g).members.map (seatOf t g) = positions.map some) := by
  obtain ⟨positions, sequence, n, hdrawn, hsequence, hloop⟩ := assignRandomized_ok h
  have hperm : positions.Perm (List.range (rosterAt s g).members.length) := by
    rw [length_members]
    exact shuffle_perm hdrawn
  refine ⟨positions, sequence, hdrawn, hperm, ?_, hsequence, fun hnodup => ?_⟩
  · -- the loop over the members does not write the sequence again
    rw [readAt_congr ((Within.agree_ok (w := scope [.of .mbrProf g, .of .mbrPElig g, .of .grpPosIx g]
      False False) hloop).persistent (.grpSeq g) (by simp))]
    simp
  · have hre := assign_reseated hnodup hloop
    rw [List.drop_zero] at hre
    exact map_seatOf hre (by rw [hperm.length_eq, List.length_range])

/-- **ONE ORDER**, exactly when nobody is listed twice and the order that is drawn is
    its own inverse. -/
theorem randomized_one_order_iff (h : assignPayoutPositions g caller .randomized env s = .ok u t) :
    OneOrder t g ↔ (rosterAt s g).members.Nodup ∧
      ∃ positions, drawn env g (rosterAt s g).size = some positions ∧ SelfInverse positions := by
  have hroster : rosterAt t g = rosterAt s g :=
    congrArg (Option.getD · ∅) (readAt_congr ((Within.agree_ok (w := scope [.of .mbrProf g,
      .of .mbrPElig g, .of .grpPosIx g, .of .grpSeq g] False False) h).persistent (.grpMbrs g) (by simp)))
  obtain ⟨positions, sequence, hdrawn, hperm, hstored, hsequence, hseats⟩ := assignRandomized_leaves h
  have hsize : positions.length = (rosterAt s g).size := by
    rw [hperm.length_eq, List.length_range, length_members]
  constructor
  -- the sequence names the members by slot, the seats slot by member
  · intro hone
    have hpermuted := hone.permuted
    rw [hroster] at hpermuted
    have hnodup : (rosterAt s g).members.Nodup :=
      (hpermuted.nodup_iff.mpr (List.nodup_range.map (Option.some_injective Nat))).of_map
    refine ⟨hnodup, positions, hdrawn, ?_⟩
    intro k p hp
    obtain ⟨sequence', hstored', hnamed⟩ := hone.sequence
    obtain rfl := Option.some.inj (hstored.symm.trans hstored')
    have hk : k < (rosterAt t g).size := by
      rw [hroster, ← hsize]
      exact (List.getElem?_eq_some_iff.mp hp).1
    obtain ⟨a, ha, hseat⟩ := sequence_sent hperm hsequence (hseats hnodup) hp
    obtain ⟨a', ha', hseat'⟩ := hnamed k hk
    obtain rfl := Option.some.inj (ha.symm.trans ha')
    exact hseat.symm.trans hseat'
  -- and the other way: a permutation that is its own inverse reads alike both ways
  · rintro ⟨hnodup, positions', hdrawn', hself⟩
    obtain rfl := Option.some.inj (hdrawn.symm.trans hdrawn')
    refine ⟨?_, sequence, hstored, ?_⟩
    · rw [hroster, hseats hnodup, ← length_members]
      exact hperm.map some
    · intro k hk
      rw [hroster, ← hsize] at hk
      have hp : positions[k]? = some positions[k] := List.getElem?_eq_getElem hk
      obtain ⟨a, ha, hseat⟩ := sequence_sent hperm hsequence (hseats hnodup) hp
      exact ⟨a, ha, hseat.trans (hself k positions[k] hp)⟩

end

/-! ## Two members, and three -/

/-- The creator draws. -/
def duoDrawn : State := commit (assignPayoutPositions 1 ⟨1⟩ .randomized) trioEnv duoState
def trioDrawn : State := commit (assignPayoutPositions 1 ⟨1⟩ .randomized) trioEnv trioState

/-- Two members change places, and that is one order. -/
theorem two_members_one_order : OneOrder duoDrawn 1 := by
  have hcall : assignPayoutPositions 1 ⟨1⟩ .randomized trioEnv duoState = .ok () duoDrawn := rfl
  refine (randomized_one_order_iff hcall).mpr ⟨(by decide : [Address.mk 1, ⟨2⟩].Nodup), [1, 0], rfl, ?_⟩
  intro k p hp
  cases k with
  | zero =>
      obtain rfl := Option.some.inj hp
      rfl
  | succ k =>
      cases k with
      | zero =>
          obtain rfl := Option.some.inj hp
          rfl
      | succ k => cases hp

/-- **THREE MEMBERS IN TWO ORDERS**: the sequence pays the second member first, whose
    position is the last. -/
theorem three_members_two_orders :
    assignPayoutPositions 1 ⟨1⟩ .randomized trioEnv trioState = .ok () trioDrawn ∧
      (rosterAt trioDrawn 1).members = [⟨1⟩, ⟨2⟩, ⟨3⟩] ∧
      (rosterAt trioDrawn 1).members.map (seatOf trioDrawn 1) = [some 1, some 2, some 0] ∧
      readAt (List Address) trioDrawn.persistent (.grpSeq 1) = some [⟨2⟩, ⟨3⟩, ⟨1⟩] ∧
      ¬ OneOrder trioDrawn 1 := by
  have hseats : (rosterAt trioDrawn 1).members.map (seatOf trioDrawn 1) = [some 1, some 2, some 0] := rfl
  have hstored : readAt (List Address) trioDrawn.persistent (.grpSeq 1) = some [⟨2⟩, ⟨3⟩, ⟨1⟩] := rfl
  refine ⟨rfl, rfl, hseats, hstored, ?_⟩
  rintro ⟨-, sequence, hsequence, hnamed⟩
  obtain rfl := Option.some.inj (hstored.symm.trans hsequence)
  obtain ⟨a, ha, hseat⟩ := hnamed 0 (by decide)
  obtain rfl := Option.some.inj ha
  exact absurd (hseat.symm.trans (rfl : seatOf trioDrawn 1 ⟨2⟩ = some 2)) (by decide)

end SaveDraw
