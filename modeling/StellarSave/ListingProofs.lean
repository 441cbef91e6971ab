import StellarSave.SearchProofs
import StellarSave.RecordProofs

/-! # Listings — the groups on show and the groups on the shelf

    `list_groups` steps over what is archived, `list_archived_groups` over what is
    not; both look at the flag kept beside the record, never at the record's own
    `archived`.  The two are the same in every state a run reaches, so that the two
    listings part the groups between them. -/

namespace SaveListing

open HostProg Footprint TokenLedger SaveData SaveMembership SaveLifecycle SaveView SaveLayout
open SaveCall SaveStatus SaveRecord SaveSearch SaveRoster Paging Trace Typing
open SaveRotation (fundedOpen fundedOpen_group fundedOpen_registry)

/-! ## The flag and the field -/

/-- Every record says of itself what its flag says, and no id is flagged before
    it is handed out. -/
structure Shelved (s : State) : Prop where
  field : ∀ g grp, groupAt s g = some grp → grp.archived = archivedAt s g
  fresh : ∀ g, lastId s < g → archivedAt s g = false

section Step

variable {env : Env} {s t : State} {c : Call} {g : Nat} {grp grp' : SaveData.Group}

theorem advanced_archived (grp : SaveData.Group) : grp.advanced.archived = grp.archived := by
  rw [Group.advanced]
  by_cases h : ({ grp with currentCycle := grp.currentCycle + 1 } : SaveData.Group).isComplete
  · rw [if_pos h]
  · rw [if_neg h]

/-- One line of the table writes the field. -/
theorem rewrites_archived (h : Rewrites g grp c grp') (hc : ∀ a, c ≠ .archiveGroup a g) :
    grp'.archived = grp.archived := by
  cases h with
  | archive a => exact absurd rfl (hc a)
  | payout | tick | advance => exact advanced_archived grp
  | _ => rfl

/-- **ARCHIVING** marks the id and its record. -/
theorem archiveGroup_marks {a : Address} (h : archiveGroup a g env s = .ok () t) :
    ∃ grp, groupAt s g = some grp ∧ groupAt t g = some { grp with archived := true } ∧
      ∀ j, archivedAt t j = if j = g then true else archivedAt s j := by
  simp only [archiveGroup, requireAuth_bind_ok, getOr_bind_ok, failIf_bind_ok, getD_bind_ok,
    put_bind_ok, put_ok] at h
  obtain ⟨-, grp, hgrp, -, -, -, -, rfl⟩ := h
  refine ⟨grp, hgrp, by simp [groupAt], fun j => ?_⟩
  by_cases hj : j = g
  · simp [archivedAt, hj]
  · simp [archivedAt, hj]

/-- Nothing else touches a flag. -/
theorem mark_kept (h : c.body env s = .ok () t) (hc : ∀ a, c ≠ .archiveGroup a g) :
    archivedAt t g = archivedAt s g := by
  have hagree := Within.agree_ok (w := c.footprint) h
  have hkept : ¬ c.footprint.persistent (.grpArch g) → archivedAt t g = archivedAt s g := by
    intro hout
    rw [archivedAt, readAt_congr (hagree.persistent _ hout)]
  cases c with
  | archiveGroup a g' =>
      obtain ⟨-, -, -, hmarks⟩ := archiveGroup_marks h
      rw [hmarks g, if_neg]
      rintro rfl
      exact hc a rfl
  | _ => exact hkept (Place.other_kind rfl)

/-- **THE FIELD FOLLOWS THE FLAG** through every call. -/
theorem shelved_step (hreg : Registry s) (hs : Shelved s) (h : c.body env s = .ok () t) :
    Shelved t := by
  have hlast : lastId s ≤ lastId t := (grows_step hreg h).last
  constructor
  · intro g grp' hgrp'
    by_cases hc : ∀ a, c ≠ .archiveGroup a g
    · rw [mark_kept h hc]
      rcases record_rewritten hreg h g grp' hgrp' with ⟨grp, hgrp, rfl | hrewrites⟩ | ⟨rfl, hborn⟩
      · exact hs.field g grp' hgrp
      · exact (rewrites_archived hrewrites hc).trans (hs.field g grp hgrp)
      · obtain ⟨_, _, _, _, _, _, _, _, _, rfl⟩ := hborn
        exact (hs.fresh _ (Nat.lt_succ_self _)).symm
    · obtain ⟨a, rfl⟩ := not_forall_not.mp hc
      obtain ⟨grp, -, hgrp, hmarks⟩ := archiveGroup_marks h
      obtain rfl := Option.some.inj (hgrp'.symm.trans hgrp)
      exact ((hmarks g).trans (if_pos rfl)).symm
  · intro g hg
    by_cases hc : ∀ a, c ≠ .archiveGroup a g
    · exact (mark_kept h hc).trans (hs.fresh g (Nat.lt_of_le_of_lt hlast hg))
    · -- an id that is not handed out has no record to archive
      obtain ⟨a, rfl⟩ := not_forall_not.mp hc
      obtain ⟨grp, hgrp, -⟩ := archiveGroup_marks h
      have hnone := (hreg.below g (Nat.lt_of_le_of_lt hlast hg)).1
      exact absurd (hnone.symm.trans hgrp) (by simp)

end Step

/-! ## One page -/

/-- The group of an id that `list_groups` is for: not archived, and of the status
    asked for, which is the one under the group's own key. -/
def onShow (s : State) (filter : Option GroupStatus) (id : Nat) : Option Group :=
  (groupAt s id).filter fun grp =>
    !grp.archived && filter.all fun wanted => decide ((statusAt s id).getD .pending = wanted)

/-- The group of an id that `list_archived_groups` is for. -/
def onShelf (s : State) (id : Nat) : Option Group := (groupAt s id).filter fun grp => grp.archived

/-- Where a listing starts: cursor `0` stands for the last id. -/
def startOf (s : State) (cursor : Nat) : Nat := if cursor = 0 then lastId s else cursor

section Page

variable {env : Env} {s : State} {cursor limit : Nat} {filter : Option GroupStatus}

theorem getTotalGroups_eq (hlaw : Obeys layout s) : getTotalGroups env s = .ok (lastId s) s := by
  rw [getTotalGroups, getD_bind_ok, pure_ok]
  exact ⟨typed_of_obeys hlaw, rfl, rfl⟩

theorem onShow_none {id : Nat} (hgrp : groupAt s id = none) : onShow s filter id = none := by
  rw [onShow, hgrp]
  rfl

/-- Who is on show is told by the flag and the status key. -/
theorem onShow_eq (hs : Shelved s) {id : Nat} {grp : Group} (hgrp : groupAt s id = some grp) :
    onShow s filter id = if archivedAt s id = true then none else
      if (filter.all fun wanted => decide ((statusAt s id).getD .pending = wanted)) = true
        then some grp else none := by
  rw [onShow, hgrp, Option.filter_some, hs.field id grp hgrp]
  by_cases harch : archivedAt s id = true
  · rw [if_pos harch, harch]
    rfl
  · rw [if_neg harch, Bool.eq_false_of_not_eq_true harch]
    rfl

/-- Who is on the shelf is told by the flag. -/
theorem onShelf_eq (hs : Shelved s) (id : Nat) :
    onShelf s id = if archivedAt s id = true then groupAt s id else none := by
  rw [onShelf]
  cases hgrp : groupAt s id with
  | none => simp
  | some grp => rw [Option.filter_some, hs.field id grp hgrp]

/-- **THE LISTING OF GROUPS**: the first of those on show, from the cursor down. -/
theorem listGroups_eq (hlaw : Obeys layout s) (hs : Shelved s) :
    listGroups cursor limit filter env s =
      .ok (((downFrom (startOf s cursor)).filterMap (onShow s filter)).take (min limit 50)) s := by
  rw [listGroups, bind_of_ok (getTotalGroups_eq hlaw)]
  refine (foldEach_of_value (f := fill (onShow s filter) (min limit 50)) ?_ _ _).trans ?_
  · intro groups id
    rw [fill]
    by_cases hfull : min limit 50 ≤ groups.length
    · rw [if_pos hfull, if_pos hfull]
      rfl
    · rw [if_neg hfull, if_neg hfull, getOpt_bind_ok, onOption_ok]
      refine ⟨typed_of_obeys hlaw, ?_⟩
      -- one case for each way the loop leaves an id: deleted, archived, of another status, listed
      cases hgrp : readAt Group s.persistent (.grp id) with
      | none =>
          refine Or.inl ⟨rfl, ?_⟩
          rw [onShow_none hgrp, Option.toList_none, List.append_nil]
          rfl
      | some grp =>
          refine Or.inr ⟨grp, rfl, ?_⟩
          rw [getD_bind_ok, onShow_eq hs hgrp]
          refine ⟨typed_of_obeys hlaw, ?_⟩
          by_cases harch : archivedAt s id = true
          · rw [if_pos harch, if_pos harch, Option.toList_none, List.append_nil]
            rfl
          · rw [if_neg harch, if_neg harch]
            cases filter with
            | none => rfl
            | some wanted =>
                refine onOption_ok.mpr (Or.inr ⟨wanted, rfl, ?_⟩)
                rw [getD_bind_ok]
                refine ⟨typed_of_obeys hlaw, ?_⟩
                by_cases hstatus : (statusAt s id).getD .pending = wanted
                · rw [if_pos hstatus]
                  simp [hstatus]
                · rw [if_neg hstatus]
                  simp [hstatus]
  · rw [foldl_fill]
    rfl

/-- **THE LISTING OF THE SHELF**. -/
theorem listArchivedGroups_eq (hlaw : Obeys layout s) (hs : Shelved s) :
    listArchivedGroups cursor limit env s =
      .ok (((downFrom (startOf s cursor)).filterMap (onShelf s)).take (min limit 50)) s := by
  rw [listArchivedGroups, bind_of_ok (getTotalGroups_eq hlaw)]
  refine (foldEach_of_value (f := fill (onShelf s) (min limit 50)) ?_ _ _).trans ?_
  · intro groups id
    rw [fill]
    by_cases hfull : min limit 50 ≤ groups.length
    · rw [if_pos hfull, if_pos hfull]
      rfl
    · rw [if_neg hfull, if_neg hfull, getD_bind_ok, onShelf_eq hs]
      refine ⟨typed_of_obeys hlaw, ?_⟩
      by_cases harch : archivedAt s id = true
      · rw [if_neg (by simp [harch]), getOpt_bind_ok, if_pos harch]
        refine ⟨typed_of_obeys hlaw, ?_⟩
        rw [pure_ok, groupAt]
        cases readAt Group s.persistent (.grp id) with
        | none => exact ⟨(List.append_nil groups).symm, rfl⟩
        | some grp => exact ⟨rfl, rfl⟩
      · rw [if_pos (by simpa using harch), if_neg harch, Option.toList_none, List.append_nil]
        rfl
  · rw [foldl_fill]
    rfl

end Page

/-! ## Page after page -/

/-- One page of a listing, and the cursor right below its last group: there is
    none below the id `1`, and none after an empty page. -/
def pageDown (listing : Nat → SaveM (List Group)) (env : Env) (s : State) (cursor : Nat) :
    Option (List Group × Option Nat) :=
  match listing cursor env s with
  | .ok groups _ => some (groups, groups.getLast?.bind fun grp =>
      if grp.id ≤ 1 then none else some (grp.id - 1))
  | _ => none

section Pages

variable {env : Env} {s : State} {listing : Nat → SaveM (List Group)} {pick : Nat → Option Group}
  {room : Nat}

/-- **NOTHING LOST, NOTHING REPEATED** on the way down. -/
theorem pages_down (hroom : 0 < room) (hown : ∀ id grp, pick id = some grp → grp.id = id)
    (hlisting : ∀ c, listing c env s = .ok (((downFrom (startOf s c)).filterMap pick).take room) s)
    {calls cursor : Nat} (hcalls : startOf s cursor < calls) :
    ∃ ps, pages (pageDown listing env s) calls cursor = some ps ∧
      ps.flatten = (downFrom (startOf s cursor)).filterMap pick := by
  refine pages_complete (pageDown listing env s) (fun c => downFrom (startOf s c)) pick ?_ ?_
  · intro c
    rw [pageDown, hlisting c]
    -- the page is empty at the end only
    by_cases hnone : (downFrom (startOf s c)).filterMap pick = []
    · refine ⟨downFrom (startOf s c), [], none, ?_, (List.append_nil _).symm, fun _ => rfl, ?_⟩
      · rw [hnone, List.take_nil]
        rfl
      · exact fun c' hc' => absurd hc' (by simp)
    · -- the page ends at the group it last picked, and the next starts right below it
      obtain ⟨seen, id, rest, grp, hids, hgrp, htake, hlast⟩ := exists_last_picked pick room hroom hnone
      have hid : grp.id = id := hown id grp hgrp
      have hmem : id ∈ downFrom (startOf s c) := by
        rw [hids]
        exact List.mem_append_right _ List.mem_cons_self
      have hpos : 0 < id := (mem_downFrom.mp hmem).1
      obtain ⟨n, rfl⟩ := Nat.exists_eq_succ_of_ne_zero (Nat.pos_iff_ne_zero.mp hpos)
      have hrest : downFrom n = rest :=
        (List.cons.inj ((downFrom_succ n).symm.trans (downFrom_rest hids))).2
      refine ⟨seen ++ [n + 1], rest, if n + 1 ≤ 1 then none else some n, ?_, ?_, ?_, ?_⟩
      · show some (_, Option.bind _ _) = _
        rw [hlast, Option.bind_some, htake, hid]
        rfl
      · show downFrom (startOf s c) = _
        rw [hids, List.append_assoc]
        rfl
      · intro h
        by_cases hone : n + 1 ≤ 1
        · obtain rfl : n = 0 := by omega
          exact hrest.symm
        · exact absurd h (by rw [if_neg hone]; simp)
      · intro c' hc'
        by_cases hone : n + 1 ≤ 1
        · exact absurd hc' (by rw [if_pos hone]; simp)
        · rw [if_neg hone] at hc'
          obtain rfl := Option.some.inj hc'
          have hstart : startOf s n = n := if_neg (by omega)
          refine ⟨?_, by simp⟩
          show downFrom (startOf s n) = rest
          rw [hstart, hrest]
  · show (downFrom (startOf s cursor)).length < calls
    rw [downFrom, List.length_map, List.length_reverse, List.length_range]
    exact hcalls

/-- The ids of what is picked are those it is picked at. -/
theorem picked_ids (hown : ∀ id grp, pick id = some grp → grp.id = id) (ids : List Nat) :
    (ids.filterMap pick).map (·.id) = ids.filter fun id => (pick id).isSome := by
  induction ids with
  | nil => rfl
  | cons id ids ih =>
      cases hid : pick id with
      | none =>
          rw [List.filterMap_cons_none hid, List.filter_cons_of_neg (by simp [hid])]
          exact ih
      | some grp =>
          rw [List.filterMap_cons_some hid, List.filter_cons_of_pos (by simp [hid]), List.map_cons, ih,
            hown id grp hid]

end Pages

/-! ## Every state a run reaches -/

/-- Well-typed entries, records under their own ids, none under zero, and flags
    that the records repeat. -/
structure Catalogued (s : State) : Prop where
  law : Obeys layout s
  registry : Registry s
  zero : groupAt s 0 = none
  shelved : Shelved s

theorem catalogued_deployed (l : Ledger) : Catalogued (deployed l) where
  law := obeys_deployed l
  registry := registry_deployed l
  zero := rfl
  shelved := by
    refine ⟨fun g grp h => ?_, fun _ _ => rfl⟩
    have hnone : groupAt (deployed l) g = none := rfl
    rw [hnone] at h
    cases h

theorem catalogued_apply (x : Step) (s : State) (hs : Catalogued s) : Catalogued (apply x s) := by
  have hzero := zero_apply x s ⟨hs.registry, hs.zero⟩
  refine ⟨obeys_apply x s hs.law, hzero.1, hzero.2, ?_⟩
  have hshelved := apply_invariant (C := fun _ _ => True) (I := fun t => Registry t ∧ Shelved t)
    (fun _ _ _ _ _ hs h => ⟨registry_step hs.1 h, shelved_step hs.1 hs.2 h⟩)
    (fun _ h => ⟨⟨h.1.own, h.1.below⟩, ⟨h.2.field, h.2.fresh⟩⟩)
    (fun _ _ h => ⟨⟨h.1.own, h.1.below⟩, ⟨h.2.field, h.2.fresh⟩⟩) x s trivial ⟨hs.registry, hs.shelved⟩
  exact hshelved.2

theorem catalogued_run {s : State} (hs : Catalogued s) (steps : List Step) :
    Catalogued (run steps s) :=
  exec_invariant_always (I := Catalogued) catalogued_apply hs steps

/-- The two listings part the groups of a state between them. -/
structure Parted (t : State) : Prop where
  /-- A record says of itself what its flag says. -/
  field : ∀ g grp, groupAt t g = some grp → grp.archived = archivedAt t g
  /-- A page of the groups on show: the first of them from the cursor down. -/
  shown : ∀ env cursor limit filter, 1 ≤ cursor → listGroups cursor limit filter env t =
    .ok (((downFrom cursor).filterMap (onShow t filter)).take (min limit 50)) t
  /-- A page of the shelf. -/
  shelved : ∀ env cursor limit, 1 ≤ cursor → listArchivedGroups cursor limit env t =
    .ok (((downFrom cursor).filterMap (onShelf t)).take (min limit 50)) t
  /-- Paging both down from the last id, or beyond, every group comes once. -/
  parted : ∀ env n m cursor, 1 ≤ n → 1 ≤ m → lastId t ≤ startOf t cursor →
    ∃ calls front shelf,
      pages (pageDown (fun c => listGroups c n none) env t) calls cursor = some front ∧
      pages (pageDown (fun c => listArchivedGroups c m) env t) calls cursor = some shelf ∧
      ((front.flatten ++ shelf.flatten).map (·.id)).Nodup ∧
      ∀ grp, grp ∈ front.flatten ++ shelf.flatten ↔ groupAt t grp.id = some grp

section Parts

variable {env : Env} {t : State}

theorem onShow_some {id : Nat} {grp : SaveData.Group} :
    onShow t none id = some grp ↔ groupAt t id = some grp ∧ grp.archived = false := by
  rw [onShow, Option.filter_eq_some_iff]
  simp

theorem onShelf_some {id : Nat} {grp : SaveData.Group} :
    onShelf t id = some grp ↔ groupAt t id = some grp ∧ grp.archived = true := by
  rw [onShelf, Option.filter_eq_some_iff]

/-- Together, on show and on the shelf, all the groups, each once. -/
theorem parts (ht : Catalogued t) {n : Nat} (hn : lastId t ≤ n) :
    (((downFrom n).filterMap (onShow t none) ++ (downFrom n).filterMap (onShelf t)).map (·.id)).Nodup ∧
      ∀ grp, grp ∈ (downFrom n).filterMap (onShow t none) ++ (downFrom n).filterMap (onShelf t) ↔
        groupAt t grp.id = some grp := by
  have hown : ∀ id grp, groupAt t id = some grp → grp.id = id := ht.registry.own
  -- a group is on show or on the shelf, never both
  constructor
  · rw [List.map_append, picked_ids fun id grp h => hown id grp (onShow_some.mp h).1,
      picked_ids fun id grp h => hown id grp (onShelf_some.mp h).1]
    refine List.nodup_append'.mpr ⟨(nodup_downFrom n).filter _, (nodup_downFrom n).filter _, ?_⟩
    intro id hshow hshelf
    obtain ⟨grp, hgrp⟩ := Option.isSome_iff_exists.mp (List.mem_filter.mp hshow).2
    obtain ⟨grp', hgrp'⟩ := Option.isSome_iff_exists.mp (List.mem_filter.mp hshelf).2
    obtain ⟨hgrp, hoff⟩ := onShow_some.mp hgrp
    obtain ⟨hgrp', hon⟩ := onShelf_some.mp hgrp'
    obtain rfl := Option.some.inj (hgrp.symm.trans hgrp')
    exact absurd (hoff.symm.trans hon) (by decide)
  -- whatever is on either list is a group
  · intro grp
    rw [List.mem_append, List.mem_filterMap, List.mem_filterMap]
    constructor
    · rintro (⟨id, -, hid⟩ | ⟨id, -, hid⟩)
      · obtain ⟨hgrp, -⟩ := onShow_some.mp hid
        rwa [hown id grp hgrp]
      · obtain ⟨hgrp, -⟩ := onShelf_some.mp hid
        rwa [hown id grp hgrp]
    · intro hgrp
      have hissued := (groupStorage_of ht.law ht.registry ht.zero).issued grp.id grp hgrp
      have hmem : grp.id ∈ downFrom n := mem_downFrom.mpr ⟨hissued.1, hissued.2.trans hn⟩
      cases harch : grp.archived with
      | false => exact Or.inl ⟨grp.id, hmem, onShow_some.mpr ⟨hgrp, harch⟩⟩
      | true => exact Or.inr ⟨grp.id, hmem, onShelf_some.mpr ⟨hgrp, harch⟩⟩

theorem parted_of_catalogued (ht : Catalogued t) : Parted t where
  field := ht.shelved.field
  shown env cursor limit filter hc := by
    rw [listGroups_eq ht.law ht.shelved, startOf, if_neg (by omega)]
  shelved env cursor limit hc := by
    rw [listArchivedGroups_eq ht.law ht.shelved, startOf, if_neg (by omega)]
  parted env n m cursor hn hm hstart := by
    have hown : ∀ id grp, groupAt t id = some grp → grp.id = id := ht.registry.own
    have hshowpage : ∀ c, listGroups c n none env t =
        .ok (((downFrom (startOf t c)).filterMap (onShow t none)).take (min n 50)) t :=
      fun c => listGroups_eq ht.law ht.shelved
    have hshelfpage : ∀ c, listArchivedGroups c m env t =
        .ok (((downFrom (startOf t c)).filterMap (onShelf t)).take (min m 50)) t :=
      fun c => listArchivedGroups_eq ht.law ht.shelved
    obtain ⟨shown, hshown, hshownall⟩ := pages_down (by omega)
      (fun id grp h => hown id grp (onShow_some.mp h).1) hshowpage (Nat.lt_succ_self (startOf t cursor))
    obtain ⟨shelf, hshelf, hshelfall⟩ := pages_down (by omega)
      (fun id grp h => hown id grp (onShelf_some.mp h).1) hshelfpage
      (Nat.lt_succ_self (startOf t cursor))
    refine ⟨_, shown, shelf, hshown, hshelf, ?_⟩
    rw [hshownall, hshelfall]
    exact parts ht hstart

end Parts

/-- **EVERY GROUP IN ONE LISTING, ONCE**: whatever is called, the two listings part
    the groups between them. -/
theorem listings_part (s : State) (hs : Catalogued s) (steps : List Step) :
    Parted (run steps s) :=
  parted_of_catalogued (catalogued_run hs steps)

/-! A group that was dissolved is archived; a younger one stays on show. -/

/-- Two members dissolve the group, its creator archives it and makes another. -/
def oneArchived : List Step :=
  [.call trioEnv (.joinGroup 1 ⟨1⟩ none), .call trioEnv (.joinGroup 1 ⟨2⟩ none),
    .call trioEnv (.activateGroup 1 ⟨1⟩), .call trioEnv (.voteDissolve 1 ⟨1⟩),
    .call trioEnv (.voteDissolve 1 ⟨2⟩), .call trioEnv (.archiveGroup ⟨1⟩ 1),
    .call trioEnv (.createGroup ⟨1⟩ 1000000 3600 5 ⟨9⟩ 0 .sequential)]

theorem fundedOpen_catalogued : Catalogued fundedOpen where
  law := fundedOpen_obeys
  registry := fundedOpen_registry
  zero := rfl
  shelved := by
    refine ⟨fun g grp h => ?_, fun g _ => by simp [fundedOpen, archivedAt, deployed, readAt]⟩
    obtain ⟨rfl, rfl⟩ := fundedOpen_group h
    rfl

theorem listings_part_archived :
    Parted (run oneArchived fundedOpen) ∧
      (groupAt (run oneArchived fundedOpen) 1).map (·.archived) = some true ∧
      (groupAt (run oneArchived fundedOpen) 2).map (·.archived) = some false :=
  ⟨listings_part fundedOpen fundedOpen_catalogued oneArchived, by decide +kernel, by decide +kernel⟩

end SaveListing
