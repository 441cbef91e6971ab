import Mathlib.Data.List.Perm.Subperm
import Mathlib.Data.List.Nodup
import Mathlib.Data.List.Range
import Mathlib.Tactic.Common

/-! # Seatings — members and positions, each found from the other

    A list of members, a partial map from members to seats and a partial map
    from seats to their holders.  They are a SEATING when the two maps are
    inverse to each other, exactly the members are seated, and the seats taken
    are exactly `0` to one less than the number of members.

    Three ways to change one are characterised: a newcomer takes the next
    seat, a member leaves, everybody is seated anew from a list of seats. -/

namespace Seating

variable {A : Type} {members members' : List A} {seat seat' : A → Option Nat}
  {holder holder' : Nat → Option A}

/-- The two maps describe one bijection between the members and the first
    `members.length` seats. -/
structure Seated (members : List A) (seat : A → Option Nat) (holder : Nat → Option A) :
    Prop where
  inverse : ∀ a p, seat a = some p ↔ holder p = some a
  only : ∀ a, a ∈ members ↔ ∃ p, seat a = some p
  lt : ∀ a p, seat a = some p → p < members.length
  full : ∀ p, p < members.length → ∃ a, seat a = some p

theorem Seated.inj (h : Seated members seat holder) {a b : A} {p : Nat} (ha : seat a = some p)
    (hb : seat b = some p) : a = b := by
  have ha' := (h.inverse a p).mp ha
  rw [(h.inverse b p).mp hb] at ha'
  exact (Option.some.inj ha').symm

/-- As many members as seats, every seat taken: nobody is listed twice. -/
theorem Seated.nodup (h : Seated members seat holder) : members.Nodup := by
  have hsub : List.range members.length ⊆ members.map fun a => (seat a).getD 0 := by
    intro p hp
    obtain ⟨a, ha⟩ := h.full p (List.mem_range.mp hp)
    refine List.mem_map.mpr ⟨a, (h.only a).mpr ⟨p, ha⟩, ?_⟩
    rw [ha]
    rfl
  have hperm := (List.subperm_of_subset List.nodup_range hsub).perm_of_length_le
    (by rw [List.length_map, List.length_range])
  exact List.Nodup.of_map _ (hperm.nodup_iff.mp List.nodup_range)

/-- Nobody, and no seat taken. -/
theorem seated_nil : Seated ([] : List A) (fun _ => none) fun _ => none where
  inverse _ _ := ⟨nofun, nofun⟩
  only _ := ⟨nofun, nofun⟩
  lt _ _ := nofun
  full _ hp := absurd hp (Nat.not_lt_zero _)

variable [DecidableEq A] {a₀ : A} {p₀ : Nat}

/-- **JOINING**: a newcomer in the next seat. -/
theorem Seated.join (h : Seated members seat holder) (hnew : a₀ ∉ members)
    (hmem : ∀ a, a ∈ members' ↔ a = a₀ ∨ a ∈ members)
    (hlen : members'.length = members.length + 1)
    (hseat : ∀ a, seat' a = if a = a₀ then some members.length else seat a)
    (hholder : ∀ p, holder' p = if p = members.length then some a₀ else holder p) :
    Seated members' seat' holder' := by
  -- the newcomer has no seat yet, and the next one is nobody's
  have hfree : seat a₀ = none := by
    cases hs : seat a₀ with
    | none => rfl
    | some p => exact absurd ((h.only a₀).mpr ⟨p, hs⟩) hnew
  have hlast : holder members.length = none := by
    cases hs : holder members.length with
    | none => rfl
    | some a => exact absurd (h.lt a _ ((h.inverse a _).mpr hs)) (Nat.lt_irrefl _)
  constructor
  · intro a p
    rw [hseat, hholder]
    -- the newcomer on the last seat, or somebody else on another
    by_cases ha : a = a₀
    · by_cases hp : p = members.length
      · rw [if_pos ha, if_pos hp, hp, ha]
        exact iff_of_true rfl rfl
      · rw [if_pos ha, if_neg hp, ha, ← h.inverse, hfree]
        exact iff_of_false (fun he => hp (Option.some.inj he).symm) nofun
    · by_cases hp : p = members.length
      · rw [if_neg ha, if_pos hp, hp, h.inverse, hlast]
        exact iff_of_false nofun fun he => ha (Option.some.inj he).symm
      · rw [if_neg ha, if_neg hp]
        exact h.inverse a p
  · intro a
    rw [hmem, hseat]
    by_cases ha : a = a₀
    · rw [if_pos ha]
      exact iff_of_true (Or.inl ha) ⟨_, rfl⟩
    · rw [if_neg ha, or_iff_right ha]
      exact h.only a
  · intro a p hp
    rw [hseat] at hp
    by_cases ha : a = a₀
    · rw [if_pos ha] at hp
      have := Option.some.inj hp
      omega
    · rw [if_neg ha] at hp
      have := h.lt a p hp
      omega
  -- all seats below the count are taken, the last one by the newcomer
  · intro p hp
    by_cases hlastp : p = members.length
    · exact ⟨a₀, by rw [hseat, if_pos rfl, hlastp]⟩
    · obtain ⟨a, ha⟩ := h.full p (by omega)
      have hne : a ≠ a₀ := by
        intro he
        rw [he, hfree] at ha
        cases ha
      exact ⟨a, by rw [hseat, if_neg hne, ha]⟩

/-- **LEAVING**: the seats close up exactly when the last one is given up and
    the list loses exactly its holder. -/
theorem Seated.leave_iff (h : Seated members seat holder) (ha₀ : seat a₀ = some p₀)
    (hlen : members'.length + 1 = members.length)
    (hseat : ∀ a, seat' a = if a = a₀ then none else seat a)
    (hholder : ∀ p, holder' p = if p = p₀ then none else holder p) :
    Seated members' seat' holder' ↔
      p₀ + 1 = members.length ∧ ∀ a, a ∈ members' ↔ a ≠ a₀ ∧ a ∈ members := by
  -- whoever sits afterwards sat there before
  have hback : ∀ {a p}, seat' a = some p ↔ a ≠ a₀ ∧ seat a = some p := by
    intro a p
    rw [hseat]
    by_cases ha : a = a₀
    · rw [if_pos ha]
      exact iff_of_false nofun fun hn => hn.1 ha
    · rw [if_neg ha]
      exact ⟨fun hs => ⟨ha, hs⟩, fun hs => hs.2⟩
  constructor
  · intro h'
    have hp₀ := h.lt a₀ p₀ ha₀
    refine ⟨?_, fun a => ?_⟩
    · -- an earlier seat given up would have to be filled by somebody else
      by_contra hne
      obtain ⟨a, ha⟩ := h'.full p₀ (by omega)
      obtain ⟨hane, has⟩ := hback.mp ha
      exact hane (h.inj has ha₀)
    · rw [h'.only, h.only]
      constructor
      · rintro ⟨p, hp⟩
        exact ⟨(hback.mp hp).1, p, (hback.mp hp).2⟩
      · rintro ⟨hne, p, hp⟩
        exact ⟨p, hback.mpr ⟨hne, hp⟩⟩
  -- and the other way: the last seat goes, and the others close up nothing
  · rintro ⟨hlast, hmem⟩
    constructor
    · intro a p
      rw [hback, hholder]
      by_cases hp : p = p₀
      · rw [if_pos hp]
        refine iff_of_false (fun hn => hn.1 ?_) nofun
        exact h.inj (hp ▸ hn.2) ha₀
      · rw [if_neg hp, ← h.inverse]
        refine ⟨fun hn => hn.2, fun hs => ⟨fun he => hp ?_, hs⟩⟩
        rw [he, ha₀] at hs
        exact (Option.some.inj hs).symm
    · intro a
      rw [hmem, h.only]
      constructor
      · rintro ⟨hne, p, hp⟩
        exact ⟨p, hback.mpr ⟨hne, hp⟩⟩
      · rintro ⟨p, hp⟩
        exact ⟨(hback.mp hp).1, p, (hback.mp hp).2⟩
    · intro a p hp
      obtain ⟨hne, hs⟩ := hback.mp hp
      have hlt := h.lt a p hs
      have hpne : p ≠ p₀ := fun he => hne (h.inj (he ▸ hs) ha₀)
      omega
    · intro p hp
      obtain ⟨a, ha⟩ := h.full p (by omega)
      refine ⟨a, hback.mpr ⟨fun he => ?_, ha⟩⟩
      rw [he, ha₀] at ha
      have := Option.some.inj ha
      omega

/-- Distinct numbers below the length of their list are all the numbers below
    it. -/
theorem perm_range_of_nodup {ps : List Nat} (hnodup : ps.Nodup)
    (hlt : ∀ p ∈ ps, p < ps.length) : ps.Perm (List.range ps.length) :=
  (List.subperm_of_subset hnodup fun p hp => List.mem_range.mpr (hlt p hp)).perm_of_length_le
    (by rw [List.length_range])

/-- **SEATING ANEW**: giving the `i`-th member the `i`-th seat of a list is a
    seating exactly when the list is a permutation of the seats. -/
theorem Seated.assign_iff (h : Seated members seat holder) {ps : List Nat}
    (hlen : ps.length = members.length)
    (hseat : ∀ (i : Nat) (a : A) (p : Nat), members[i]? = some a → ps[i]? = some p →
      seat' a = some p)
    (hother : ∀ a, a ∉ members → seat' a = none)
    (hin : ∀ p ∈ ps, ∃ (i : Nat) (a : A), ps[i]? = some p ∧ members[i]? = some a ∧
      holder' p = some a)
    (hout : ∀ p, p ∉ ps → holder' p = holder p) :
    Seated members seat' holder' ↔ ps.Perm (List.range members.length) := by
  have hof : ∀ {a p}, seat' a = some p → ∃ i : Nat, members[i]? = some a ∧ ps[i]? = some p := by
    intro a p hs
    have ha : a ∈ members := by
      by_contra hn
      rw [hother a hn] at hs
      cases hs
    obtain ⟨i, hi⟩ := List.mem_iff_getElem?.mp ha
    have hlt : i < ps.length := hlen ▸ (List.getElem?_eq_some_iff.mp hi).1
    have hp := List.getElem?_eq_getElem hlt
    rw [hseat i a _ hi hp] at hs
    exact ⟨i, hi, hp.trans hs⟩
  constructor
  · intro h'
    -- every seat listed is somebody's, so a seat listed twice seats two
    have hone : ∀ {i : Nat} {p : Nat}, ps[i]? = some p → ∃ a, members[i]? = some a ∧
        seat' a = some p := by
      intro i p hp
      have hlt : i < members.length := hlen ▸ (List.getElem?_eq_some_iff.mp hp).1
      exact ⟨_, List.getElem?_eq_getElem hlt, hseat i _ p (List.getElem?_eq_getElem hlt) hp⟩
    have hnodup : ps.Nodup := by
      rw [List.nodup_iff_getElem?_ne_getElem?]
      intro i j hij hj heq
      obtain ⟨p, hp⟩ : ∃ p, ps[j]? = some p := ⟨_, List.getElem?_eq_getElem hj⟩
      obtain ⟨a, ha, hsa⟩ := hone (heq.trans hp)
      obtain ⟨b, hb, hsb⟩ := hone hp
      have hab := h'.inj hsa hsb
      subst hab
      refine absurd (ha.trans hb.symm) ?_
      exact List.nodup_iff_getElem?_ne_getElem?.mp h.nodup i j hij (hlen ▸ hj)
    rw [← hlen]
    refine perm_range_of_nodup hnodup fun p hp => ?_
    obtain ⟨i, hi⟩ := List.mem_iff_getElem?.mp hp
    obtain ⟨a, -, hs⟩ := hone hi
    exact hlen ▸ h'.lt a p hs
  · intro hperm
    have hmemps : ∀ {p}, p ∈ ps ↔ p < members.length := by
      intro p
      rw [hperm.mem_iff, List.mem_range]
    have hnodup : ps.Nodup := hperm.nodup_iff.mpr List.nodup_range
    constructor
    · intro a p
      constructor
      · intro hs
        obtain ⟨i, hi, hpi⟩ := hof hs
        obtain ⟨j, b, hpj, hbj, hb⟩ := hin p (List.mem_of_getElem? hpi)
        -- a permutation lists the seat once
        have hij : i = j := by
          by_contra hne
          rcases Nat.lt_or_gt_of_ne hne with hlt | hlt
          · exact List.nodup_iff_getElem?_ne_getElem?.mp hnodup i j hlt
              (List.getElem?_eq_some_iff.mp hpj).1 (hpi.trans hpj.symm)
          · exact List.nodup_iff_getElem?_ne_getElem?.mp hnodup j i hlt
              (List.getElem?_eq_some_iff.mp hpi).1 (hpj.trans hpi.symm)
        subst hij
        rw [hb, ← hbj, hi]
      · intro hh
        by_cases hp : p ∈ ps
        · obtain ⟨i, b, hpi, hbi, hb⟩ := hin p hp
          rw [hb] at hh
          exact hseat i a p (Option.some.inj hh ▸ hbi) hpi
        · -- an old holder's seat is below the length, so it was dealt out again
          rw [hout p hp, ← h.inverse] at hh
          exact absurd (hmemps.mpr (h.lt a p hh)) hp
    · intro a
      constructor
      · intro ha
        obtain ⟨i, hi⟩ := List.mem_iff_getElem?.mp ha
        have hlt : i < ps.length := hlen ▸ (List.getElem?_eq_some_iff.mp hi).1
        exact ⟨_, hseat i a _ hi (List.getElem?_eq_getElem hlt)⟩
      · rintro ⟨p, hp⟩
        obtain ⟨i, hi, -⟩ := hof hp
        exact List.mem_of_getElem? hi
    · intro a p hs
      obtain ⟨i, -, hpi⟩ := hof hs
      exact hmemps.mp (List.mem_of_getElem? hpi)
    · intro p hp
      obtain ⟨i, a, hpi, hai, -⟩ := hin p (hmemps.mpr hp)
      exact ⟨a, hseat i a p hai hpi⟩

/-! ## Slots

    One slot for each seat; whoever has one is put into it, whoever has none
    is left out.  Read off in order, the filled slots are a queue. -/

/-- Put a member into the slot of its seat. -/
def place (seat : A → Option Nat) (slots : List (Option A)) (a : A) : List (Option A) :=
  match seat a with
  | some p => slots.set p (some a)
  | none => slots

/-- The queue of the listed members over `n` slots. -/
def queue (seat : A → Option Nat) (n : Nat) (xs : List A) : List A :=
  (xs.foldl (place seat) (List.replicate n none)).filterMap id

section Slots

omit [DecidableEq A]

variable {slots : List (Option A)} {xs : List A} {n i : Nat} {a : A}

theorem place_iff (b : A) :
    (place seat slots b)[i]? = some (some a) ↔
      (i < slots.length ∧ b = a ∧ seat a = some i) ∨
        (slots[i]? = some (some a) ∧ seat b ≠ some i) := by
  rw [place]
  cases hb : seat b with
  -- a member without a seat changes no slot
  | none =>
      refine ⟨fun h => Or.inr ⟨h, by simp⟩, ?_⟩
      rintro (⟨-, rfl, ha⟩ | ⟨h, -⟩)
      · rw [hb] at ha
        cases ha
      · exact h
  | some p =>
      rw [List.getElem?_set]
      by_cases hp : p = i
      · subst hp
        rw [if_pos rfl]
        constructor
        · intro h
          by_cases hlt : p < slots.length
          · rw [if_pos hlt] at h
            obtain rfl : b = a := by simpa using h
            exact Or.inl ⟨hlt, rfl, hb⟩
          · rw [if_neg hlt] at h
            cases h
        · rintro (⟨hlt, rfl, -⟩ | ⟨-, hne⟩)
          · rw [if_pos hlt]
          · exact absurd rfl hne
      · rw [if_neg hp]
        refine ⟨fun h => Or.inr ⟨h, by simpa using hp⟩, ?_⟩
        rintro (⟨-, rfl, ha⟩ | ⟨h, -⟩)
        · rw [hb] at ha
          exact absurd (Option.some.inj ha) hp
        · exact h

theorem length_place (b : A) : (place seat slots b).length = slots.length := by
  rw [place]
  cases seat b with
  | none => rfl
  | some p => exact List.length_set

/-- **WHO IS IN A SLOT** after the round, by induction along the members. -/
theorem placed_iff (hinj : ∀ a b p, seat a = some p → seat b = some p → a = b) :
    (xs.foldl (place seat) slots)[i]? = some (some a) ↔
      (i < slots.length ∧ a ∈ xs ∧ seat a = some i) ∨
        (slots[i]? = some (some a) ∧ ∀ b ∈ xs, seat b ≠ some i) := by
  -- one member after the other: later ones do not overwrite, as seats are apart
  induction xs generalizing slots with
  | nil => simp
  | cons b xs ih =>
      rw [List.foldl_cons, ih, length_place, place_iff]
      constructor
      · rintro (⟨hlt, hmem, ha⟩ | ⟨⟨hlt, rfl, ha⟩ | ⟨hslot, hb⟩, hrest⟩)
        · exact Or.inl ⟨hlt, List.mem_cons_of_mem _ hmem, ha⟩
        · exact Or.inl ⟨hlt, List.mem_cons_self, ha⟩
        · refine Or.inr ⟨hslot, fun c hc => ?_⟩
          rcases List.mem_cons.mp hc with rfl | hc'
          · exact hb
          · exact hrest c hc'
      · rintro (⟨hlt, hmem, ha⟩ | ⟨hslot, hnone⟩)
        · rcases List.mem_cons.mp hmem with rfl | hmem'
          · by_cases hagain : a ∈ xs
            · exact Or.inl ⟨hlt, hagain, ha⟩
            · refine Or.inr ⟨Or.inl ⟨hlt, rfl, ha⟩, fun c hc he => hagain ?_⟩
              exact hinj a c i ha he ▸ hc
          · exact Or.inl ⟨hlt, hmem', ha⟩
        · refine Or.inr ⟨Or.inr ⟨hslot, hnone b List.mem_cons_self⟩, fun c hc => ?_⟩
          exact hnone c (List.mem_cons_of_mem _ hc)

/-- The slots of a fresh round. -/
theorem placed_fresh_iff (hinj : ∀ a b p, seat a = some p → seat b = some p → a = b) :
    (xs.foldl (place seat) (List.replicate n none))[i]? = some (some a) ↔
      i < n ∧ a ∈ xs ∧ seat a = some i := by
  rw [placed_iff hinj, List.length_replicate, or_iff_left]
  rintro ⟨h, -⟩
  rw [List.getElem?_replicate] at h
  by_cases hi : i < n
  · rw [if_pos hi] at h
    cases h
  · rw [if_neg hi] at h
    cases h

/-- **WHO QUEUES**: the listed members with a seat that has a slot. -/
theorem mem_queue (hinj : ∀ a b p, seat a = some p → seat b = some p → a = b) :
    a ∈ queue seat n xs ↔ a ∈ xs ∧ ∃ p, p < n ∧ seat a = some p := by
  rw [queue, List.mem_filterMap]
  constructor
  · rintro ⟨slot, hslot, rfl⟩
    obtain ⟨p, hp⟩ := List.mem_iff_getElem?.mp hslot
    obtain ⟨hlt, hmem, ha⟩ := (placed_fresh_iff hinj).mp hp
    exact ⟨hmem, p, hlt, ha⟩
  · rintro ⟨hmem, p, hlt, ha⟩
    exact ⟨some a, List.mem_of_getElem? ((placed_fresh_iff hinj).mpr ⟨hlt, hmem, ha⟩), rfl⟩

/-- **IN WHAT ORDER**: by seat, so nobody twice. -/
theorem queue_sorted (hinj : ∀ a b p, seat a = some p → seat b = some p → a = b) :
    (queue seat n xs).Pairwise fun a b => ∃ p q, seat a = some p ∧ seat b = some q ∧ p < q := by
  rw [queue, List.pairwise_filterMap, List.pairwise_iff_getElem]
  intro i j hi hj hij a ha b hb
  have hslot : ∀ {k : Nat} {c : A} (hk : k < (xs.foldl (place seat) (List.replicate n none)).length),
      id (xs.foldl (place seat) (List.replicate n none))[k] = some c → seat c = some k := by
    intro k c hk hc
    refine ((@placed_fresh_iff A seat xs n k c hinj).mp ?_).2.2
    rw [List.getElem?_eq_getElem hk]
    exact congrArg some hc
  exact ⟨i, j, hslot hi ha, hslot hj hb, hij⟩

end Slots

end Seating
