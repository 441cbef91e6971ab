import StellarSave.LayoutProofs
import StellarSave.PagingProofs

/-! # Search — paging through the groups

    `search_groups` scans the ids upwards or downwards, steps over what is
    deleted, archived or filtered out, and when a page is full returns the id to
    go on from.  Page after page it returns every group once, in order; but for
    the upward scan of a storage whose counter is the last `u64`, which aborts at
    the step past it. -/

namespace SaveSearch

open HostProg Footprint TokenLedger SaveData SaveMembership SaveView SaveLayout SaveStatus
open SaveCall SaveRoster SaveRotation Typing Trace

/-! ## The storage a search reads -/

/-- Well-typed entries, and no group but those the counter has handed out. -/
structure GroupStorage (s : State) : Prop where
  counter : TypedAt U64 s.persistent .cntNextG
  record : ∀ id, TypedAt Group s.persistent (.grp id)
  archived : ∀ id, TypedAt Bool s.persistent (.grpArch id)
  issued : ∀ id grp, groupAt s id = some grp → 0 < id ∧ id ≤ lastId s

/-- The archived mark of a group. -/
abbrev archivedAt (s : State) (id : Nat) : Bool := (readAt Bool s.persistent (.grpArch id)).getD false

/-- The group of an id that a search is for. -/
def wanted (s : State) (params : SearchParams) (id : Nat) : Option Group :=
  (groupAt s id).filter fun grp => !archivedAt s id && matchesFilters grp params

/-- Wanted are the groups that are there, not archived, and match. -/
theorem wanted_eq_some {s : State} {params : SearchParams} {id : Nat} {grp : Group} :
    wanted s params id = some grp ↔
      groupAt s id = some grp ∧ archivedAt s id = false ∧ matchesFilters grp params = true := by
  simp only [wanted, Option.filter_eq_some_iff, Bool.and_eq_true, Bool.not_eq_true']

/-- Going up, the next id has to be one. -/
def Fits (params : SearchParams) (id : Nat) : Prop := params.sort = .createdAsc → id < u64Max

section Scan

variable {env : Env} {s t : State} {params : SearchParams} {limit : Nat}
  {found r : SearchResult} {id : Nat} {ids : List Nat}

/-- An id looked at while the page has room. -/
theorem searchAt_ok (hs : GroupStorage s) (hroom : found.groups.length < limit) :
    searchAt params limit found id env s = .ok r t ↔ Fits params id ∧
      ⟨found.groups ++ (wanted s params id).toList, found.nextCursor,
        saturatingU32 (found.scanned + 1)⟩ = r ∧ s = t := by
  have hnext : ∀ {b : SearchResult}, ((do
      let _next ← if params.sort = .createdAsc then unwrap (checkedU64 (id + 1)) else pure (id - 1)
      pure b) : SaveM SearchResult) env s = .ok r t ↔ Fits params id ∧ b = r ∧ s = t := by
    intro b
    rw [Fits]
    -- oldest first the next cursor is one further, and may not fit
    by_cases hasc : params.sort = .createdAsc
    · simp only [hasc, if_true, unwrap_bind_ok, checkedU64_eq_some, pure_ok, forall_const]
      constructor
      · rintro ⟨_, ⟨hfits, -⟩, hrest⟩
        exact ⟨hfits, hrest⟩
      · rintro ⟨hfits, hrest⟩
        exact ⟨_, ⟨hfits, rfl⟩, hrest⟩
    · simp [hasc]
  rw [searchAt, if_neg (Nat.not_le.mpr hroom), getOpt_bind_ok, and_iff_right (hs.record id)]
  -- an id without a group is scanned and passed over
  cases hgrp : readAt Group s.persistent (.grp id) with
  | none =>
      have hnone : wanted s params id = none := by rw [wanted, groupAt, hgrp]; rfl
      rw [hnone, onOption_bind_ok]
      simp only [true_and, pure_bind_ok, hnext, reduceCtorEq, false_and, exists_false, or_false,
        Option.toList_none, List.append_nil]
  | some grp =>
      have hwanted : wanted s params id = if archivedAt s id = false ∧ matchesFilters grp params = true
          then some grp else none := by
        rw [wanted, groupAt, hgrp]
        simp [Option.filter]
      have hpick : ∀ {seen b : SearchResult} {u : State}, ((do
          let archived : Bool ← getD (.grpArch id) false
          pure (if archived = false ∧ matchesFilters grp params = true then
            { seen with groups := seen.groups ++ [grp] } else seen)) : SaveM SearchResult) env s = .ok b u ↔
          { seen with groups := seen.groups ++ (wanted s params id).toList } = b ∧ s = u := by
        intro seen b u
        rw [getD_bind_ok, and_iff_right (hs.archived id), pure_ok, hwanted]
        split <;> simp
      rw [onOption_bind_ok]
      simp only [reduceCtorEq, false_and, false_or, Option.some.injEq, exists_eq_left']
      rw [bind_ok]
      constructor
      · rintro ⟨b, u, hb, hrest⟩
        obtain ⟨rfl, rfl⟩ := hpick.mp hb
        exact hnext.mp hrest
      · exact fun hrest => ⟨_, _, hpick.mpr ⟨rfl, rfl⟩, hnext.mpr hrest⟩

/-- A full page looks at nothing more. -/
theorem search_full (hfull : limit ≤ found.groups.length) (hids : 0 ∉ ids) :
    foldEach (searchAt params limit) found ids env s
      = .ok { found with nextCursor :=
          if found.nextCursor = 0 then ids.headD 0 else found.nextCursor } s := by
  -- the page is full: the first id that is left becomes the cursor
  induction ids generalizing found with
  | nil =>
      obtain ⟨groups, next, scanned⟩ := found
      by_cases h : next = 0
      · subst h
        rfl
      · simp only [if_neg h]
        rfl
  | cons id ids ih =>
      obtain ⟨hid, hids⟩ := not_or.mp fun h => hids (List.mem_cons.mpr h)
      have hat : searchAt params limit found id env s = .ok { found with nextCursor :=
          if found.nextCursor = 0 then id else found.nextCursor } s := by
        rw [searchAt, if_pos hfull]
        rfl
      rw [foldEach_cons, bind_of_ok hat]
      have hrest := @ih ⟨found.groups, if found.nextCursor = 0 then id else found.nextCursor,
        found.scanned⟩ hfull hids
      refine hrest.trans ?_
      by_cases h : found.nextCursor = 0
      · simp [h, Ne.symm hid]
      · simp [h]

/-- **ONE SCAN**: it looks at a first part of the ids, all of them if the page has
    room to the end, and returns the first it has not looked at. -/
theorem search_ok (hs : GroupStorage s) (hids : 0 ∉ ids) (hnext : found.nextCursor = 0)
    (h : foldEach (searchAt params limit) found ids env s = .ok r t) :
    ∃ seen rest, ids = seen ++ rest ∧ r.groups = found.groups ++ seen.filterMap (wanted s params)
      ∧ r.nextCursor = rest.headD 0 ∧ (∀ id ∈ seen, Fits params id)
      ∧ (found.groups.length < limit → rest ≠ [] → seen ≠ []) := by
  -- one id after the other, until the page is full
  induction ids generalizing found with
  | nil =>
      rw [foldEach_nil, pure_ok] at h
      obtain ⟨rfl, -⟩ := h
      exact ⟨[], [], rfl, by simp, hnext, by simp, fun _ hrest => absurd rfl hrest⟩
  | cons id ids ih =>
      by_cases hfull : limit ≤ found.groups.length
      · rw [search_full hfull hids] at h
        obtain ⟨rfl, -⟩ := Outcome.ok.inj h
        exact ⟨[], id :: ids, rfl, by simp, if_pos hnext, by simp,
          fun hroom => absurd hfull (Nat.not_le.mpr hroom)⟩
      · rw [foldEach_cons, bind_ok] at h
        obtain ⟨b, u, hat, hrest⟩ := h
        obtain ⟨hfits, rfl, rfl⟩ := (searchAt_ok hs (Nat.lt_of_not_le hfull)).mp hat
        obtain ⟨seen, rest, rfl, hgroups, hcursor, hall, -⟩ :=
          @ih ⟨found.groups ++ (wanted s params id).toList, found.nextCursor,
            saturatingU32 (found.scanned + 1)⟩ (fun h => hids (List.mem_cons_of_mem _ h)) hnext hrest
        refine ⟨id :: seen, rest, rfl, ?_, hcursor, ?_, fun _ _ => List.cons_ne_nil _ _⟩
        · rw [hgroups, List.append_assoc]
          cases hid : wanted s params id <;> simp [hid]
        · intro i hi
          rcases List.mem_cons.mp hi with rfl | hi
          · exact hfits
          · exact hall i hi

/-- A scan that fits ends well. -/
theorem search_ends (hs : GroupStorage s) (hids : 0 ∉ ids) (hfits : ∀ id ∈ ids, Fits params id) :
    ∃ r, foldEach (searchAt params limit) found ids env s = .ok r s := by
  induction ids generalizing found with
  | nil => exact ⟨found, rfl⟩
  | cons id ids ih =>
      by_cases hfull : limit ≤ found.groups.length
      · exact ⟨_, search_full hfull hids⟩
      · have hat := (@searchAt_ok env s s params limit found _ id hs (Nat.lt_of_not_le hfull)).mpr
          ⟨hfits id (List.mem_cons_self), rfl, rfl⟩
        rw [foldEach_cons, bind_of_ok hat]
        exact ih (fun h => hids (List.mem_cons_of_mem _ h)) fun i hi =>
          hfits i (List.mem_cons_of_mem _ hi)

end Scan

/-! ## The ids of a page -/

/-- The ids from `first` to `last`. -/
def upFrom (first last : Nat) : List Nat := (List.range (last + 1 - first)).map (first + ·)

/-- The ids a search goes through from a cursor. -/
def idsFrom (sort : SortOrder) (last cursor : Nat) : List Nat :=
  if sort = .createdAsc then upFrom (if cursor = 0 then 1 else cursor) last
  else downFrom (if cursor = 0 then last else cursor)

/-- Newest first: the last id comes first. -/
theorem downFrom_succ (n : Nat) : downFrom (n + 1) = (n + 1) :: downFrom n := by
  simp [downFrom, List.range_succ]

/-- Oldest first: the first id does. -/
theorem upFrom_cons {first last : Nat} (h : first ≤ last) :
    upFrom first last = first :: upFrom (first + 1) last := by
  have hlength : last + 1 - first = (last + 1 - (first + 1)) + 1 := by omega
  rw [upFrom, hlength, List.range_succ_eq_map, upFrom]
  simp [Function.comp_def, Nat.add_comm, Nat.add_left_comm]

/-- Past the last id there is none. -/
theorem upFrom_nil {first last : Nat} (h : last < first) : upFrom first last = [] := by
  rw [upFrom, Nat.sub_eq_zero_of_le h]
  rfl

/-- Every id up to the last is gone through. -/
theorem mem_downFrom {n id : Nat} : id ∈ downFrom n ↔ 0 < id ∧ id ≤ n := by
  simp only [downFrom, List.mem_map, List.mem_reverse, List.mem_range]
  constructor
  · rintro ⟨i, hi, rfl⟩
    omega
  · rintro ⟨hpos, hle⟩
    exact ⟨id - 1, by omega, by omega⟩

/-- None of them twice. -/
theorem nodup_downFrom (n : Nat) : (downFrom n).Nodup :=
  (List.nodup_reverse.mpr List.nodup_range).map (Nat.succ_injective)

/-- All ids from the first to the last. -/
theorem mem_upFrom {first last id : Nat} : id ∈ upFrom first last ↔ first ≤ id ∧ id ≤ last := by
  simp only [upFrom, List.mem_map, List.mem_range]
  constructor
  · rintro ⟨i, hi, rfl⟩
    omega
  · rintro ⟨hfirst, hlast⟩
    exact ⟨id - first, by omega, by omega⟩

/-- The ids from one of them on. -/
theorem downFrom_rest {n id : Nat} {seen rest : List Nat} (h : downFrom n = seen ++ id :: rest) :
    downFrom id = id :: rest := by
  induction n generalizing seen with
  | zero => exact absurd h (by simp [downFrom])
  | succ n ih =>
      rw [downFrom_succ] at h
      cases seen with
      | nil =>
          obtain ⟨rfl, rfl⟩ := List.cons.inj h
          exact downFrom_succ n
      | cons i seen => exact ih (List.cons.inj h).2

/-- A search that goes on at an id sees what comes from there on. -/
theorem upFrom_rest {first last id : Nat} {seen rest : List Nat}
    (h : upFrom first last = seen ++ id :: rest) : upFrom id last = id :: rest := by
  induction seen generalizing first with
  | nil =>
      have hle : first ≤ last := by
        by_contra hlt
        rw [upFrom_nil (Nat.lt_of_not_le hlt)] at h
        exact absurd h (by simp)
      have hcons := upFrom_cons hle
      obtain ⟨rfl, -⟩ := List.cons.inj (hcons.symm.trans h)
      exact h
  | cons i seen ih =>
      have hle : first ≤ last := by
        by_contra hlt
        rw [upFrom_nil (Nat.lt_of_not_le hlt)] at h
        exact absurd h (by simp)
      rw [upFrom_cons hle] at h
      exact ih (List.cons.inj h).2

/-- Ids begin at one: zero stands for no cursor. -/
theorem idsFrom_pos {sort : SortOrder} {last cursor : Nat} : 0 ∉ idsFrom sort last cursor := by
  rw [idsFrom]
  split
  · split
    · exact fun h => absurd (mem_upFrom.mp h).1 (by omega)
    · exact fun h => absurd (mem_upFrom.mp h).1 (by omega)
  · exact fun h => absurd (mem_downFrom.mp h).1 (Nat.lt_irrefl 0)

/-- The next page starts with what the last one left. -/
theorem idsFrom_rest {sort : SortOrder} {last cursor id : Nat} {seen rest : List Nat}
    (h : idsFrom sort last cursor = seen ++ id :: rest) : idsFrom sort last id = id :: rest := by
  have hid : id ≠ 0 := by
    rintro rfl
    have hmem : 0 ∈ idsFrom sort last cursor := by
      rw [h]
      simp
    exact idsFrom_pos hmem
  rw [idsFrom] at h ⊢
  by_cases hasc : sort = .createdAsc
  · rw [if_pos hasc] at h ⊢
    rw [if_neg hid]
    exact upFrom_rest h
  · rw [if_neg hasc] at h ⊢
    rw [if_neg hid]
    exact downFrom_rest h

/-- Without a cursor every id is gone through. -/
theorem mem_idsFrom_start {sort : SortOrder} {last id : Nat} :
    id ∈ idsFrom sort last 0 ↔ 0 < id ∧ id ≤ last := by
  rw [idsFrom]
  split
  · exact mem_upFrom
  · exact mem_downFrom

/-- Newest first, or oldest first. -/
def Before (sort : SortOrder) (id id' : Nat) : Prop :=
  if sort = .createdAsc then id < id' else id' < id

/-- Always in the order that was asked for. -/
theorem idsFrom_ordered {sort : SortOrder} {last cursor : Nat} :
    (idsFrom sort last cursor).Pairwise (Before sort) := by
  rw [idsFrom]
  by_cases hasc : sort = .createdAsc
  · rw [if_pos hasc, upFrom, List.pairwise_map]
    exact List.pairwise_lt_range.imp fun h => (if_pos hasc).mpr (Nat.add_lt_add_left h _)
  · rw [if_neg hasc, downFrom, List.pairwise_map, List.pairwise_reverse]
    exact List.pairwise_lt_range.imp fun h => (if_neg hasc).mpr (Nat.add_lt_add_right h 1)

/-! ## Page after page -/

/-- One response of `search_groups`: its groups, and the cursor to feed into the
    next call. -/
def page (env : Env) (s : State) (params : SearchParams) (cursor : Nat) :
    Option (List Group × Option Nat) :=
  match searchGroups { params with cursor } env s with
  | .ok found _ => some (found.groups, if found.nextCursor = 0 then none else some found.nextCursor)
  | _ => none

/-- Paging comes to an end and returns every existing group that is not archived
    and passes the filter, each once and in the order asked for. -/
def Complete (env : Env) (s : State) (params : SearchParams) : Prop :=
  ∃ calls ps, Paging.pages (page env s params) calls 0 = some ps ∧
    ∃ ids : List Nat, ids.Pairwise (Before params.sort)
      ∧ (∀ id, id ∈ ids ↔ ∃ grp, groupAt s id = some grp ∧ archivedAt s id = false
          ∧ matchesFilters grp params = true)
      ∧ ps.flatten.map some = ids.map (groupAt s)

section Pages

variable {env : Env} {s t : State} {params : SearchParams} {r : SearchResult} {cursor : Nat}

/-- The ids left to a search from a cursor. -/
def left (s : State) (params : SearchParams) (cursor : Nat) : List Nat :=
  if lastId s = 0 then [] else idsFrom params.sort (lastId s) cursor

/-- The room of a page. -/
def pageSize (params : SearchParams) : Nat :=
  if params.limit = 0 ∨ params.limit > 50 then 50 else params.limit

/-- A page has room for a group at least. -/
theorem pageSize_pos : 0 < pageSize params := by
  rw [pageSize]
  split <;> omega

/-- `search_groups` is its loop over the ids that are left. -/
theorem searchGroups_ok (hs : GroupStorage s)
    (hsort : params.sort = .createdDesc ∨ params.sort = .createdAsc) :
    searchGroups { params with cursor } env s = .ok r t ↔
      foldEach (searchAt { params with cursor } (pageSize params)) ⟨[], 0, 0⟩
        (left s params cursor) env s = .ok r t := by
  have hpure : ∀ {m : SaveM SearchResult} {k : SearchResult → SaveM SearchResult},
      (∀ found, k found = pure found) → ((m >>= k) env s = .ok r t ↔ m env s = .ok r t) := by
    intro m k hk
    rw [bind_ok]
    simp [hk]
  have hlast : getTotalGroups env s = .ok (lastId s) s := by
    rw [getTotalGroups, getD_bind_ok, pure_ok]
    exact ⟨hs.counter, rfl, rfl⟩
  rw [searchGroups, bind_of_ok hlast, left]
  by_cases hzero : lastId s = 0
  · rw [if_pos hzero, if_pos hzero]
    exact Iff.rfl
  · rw [if_neg hzero, if_neg hzero]
    refine hpure fun found => ?_
    rcases hsort with hsort | hsort <;> simp [hsort]

/-- After a page the ids left are those behind the cursor. -/
theorem left_rest {id : Nat} {seen rest : List Nat} (h : left s params cursor = seen ++ id :: rest) :
    left s params id = id :: rest := by
  rw [left] at h ⊢
  split at h
  · exact absurd h (by simp)
  · next hzero =>
      rw [if_neg hzero]
      exact idsFrom_rest h

/-- Zero is never among them. -/
theorem left_pos : 0 ∉ left s params cursor := by
  rw [left]
  split
  · exact List.not_mem_nil
  · exact idsFrom_pos

/-- **ONE PAGE** holds what is wanted of the ids it looks at, and the next one
    starts with the rest. -/
theorem page_some (hs : GroupStorage s)
    (hsort : params.sort = .createdDesc ∨ params.sort = .createdAsc) {items : List Group}
    {next : Option Nat} (h : page env s params cursor = some (items, next)) :
    ∃ seen rest, items = seen.filterMap (wanted s params) ∧ left s params cursor = seen ++ rest
      ∧ (∀ id ∈ seen, Fits params id) ∧ (next = none → rest = [])
      ∧ ∀ c', next = some c' → left s params c' = rest ∧ seen ≠ [] := by
  -- a page is what one search answers
  rw [page] at h
  cases hfound : searchGroups { params with cursor } env s with
  | ok found t =>
      rw [hfound] at h
      obtain ⟨rfl, rfl⟩ := Prod.mk.inj (Option.some.inj h)
      obtain ⟨seen, rest, hleft, hgroups, hnext, hfits, hseen⟩ :=
        search_ok hs left_pos rfl ((searchGroups_ok hs hsort).mp hfound)
      refine ⟨seen, rest, hgroups, hleft, hfits, ?_⟩
      cases rest with
      | nil => exact ⟨fun _ => rfl, fun c' hc' => absurd hc' (by simp [hnext])⟩
      | cons id rest =>
          have hid : found.nextCursor ≠ 0 := by
            intro hzero
            obtain rfl : id = 0 := hnext.symm.trans hzero
            have hmem : 0 ∈ left s params cursor := by
              rw [hleft]
              simp
            exact left_pos hmem
          rw [if_neg hid]
          refine ⟨fun hnone => absurd hnone (by simp), fun c' hc' => ?_⟩
          obtain rfl : id = c' := hnext.symm.trans (Option.some.inj hc')
          exact ⟨left_rest hleft, hseen pageSize_pos (List.cons_ne_nil _ _)⟩
  | err e t => simp [hfound] at h
  | trap => simp [hfound] at h
  | mistyped => simp [hfound] at h

/-- A page that fits is returned. -/
theorem page_returns (env : Env) (hs : GroupStorage s)
    (hsort : params.sort = .createdDesc ∨ params.sort = .createdAsc)
    (hfits : ∀ id ∈ left s params cursor, Fits params id) :
    ∃ items next, page env s params cursor = some (items, next) := by
  have hends : ∃ r, foldEach (searchAt { params with cursor } (pageSize params)) ⟨[], 0, 0⟩
      (left s params cursor) env s = .ok r s := search_ends hs left_pos hfits
  obtain ⟨r, hr⟩ := hends
  rw [page, (searchGroups_ok hs hsort).mpr hr]
  exact ⟨_, _, rfl⟩

/-- What is picked from ids in order, as the groups of those it is picked for. -/
theorem wanted_map (ids : List Nat) :
    (ids.filterMap (wanted s params)).map some
      = (ids.filter fun id => (wanted s params id).isSome).map (groupAt s) := by
  induction ids with
  | nil => rfl
  | cons id ids ih =>
      cases hid : wanted s params id with
      | none =>
          rw [List.filterMap_cons_none hid, List.filter_cons_of_neg (by simp [hid])]
          exact ih
      | some grp =>
          rw [List.filterMap_cons_some hid, List.filter_cons_of_pos (by simp [hid]), List.map_cons,
            List.map_cons, ih, (wanted_eq_some.mp hid).1]

/-- **COMPLETE** whenever every id fits. -/
theorem complete_of_fits (hs : GroupStorage s)
    (hsort : params.sort = .createdDesc ∨ params.sort = .createdAsc)
    (hlast : params.sort = .createdAsc → lastId s < u64Max) : Complete env s params := by
  -- newest first nothing can overflow, oldest first only the last id could
  have hfits : ∀ c, ∀ id ∈ left s params c, Fits params id := by
    intro c id hid hasc
    rw [left] at hid
    split at hid
    · exact absurd hid List.not_mem_nil
    · rw [idsFrom, if_pos hasc] at hid
      have hle := (mem_upFrom.mp hid).2
      have hlt := hlast hasc
      omega
  -- the pages together are the groups wanted, in the order of the ids
  obtain ⟨ps, hps, hflat⟩ := Paging.pages_complete (page env s params) (left s params)
    (wanted s params) (fun c => by
      obtain ⟨items, next, hpage⟩ := page_returns env hs hsort (hfits c)
      obtain ⟨seen, rest, rfl, hleft, -, hend, hnext⟩ := page_some hs hsort hpage
      exact ⟨seen, rest, next, hpage, hleft, hend, hnext⟩) (c := 0) (Nat.lt_succ_self _)
  refine ⟨_, ps, hps, (left s params 0).filter fun id => (wanted s params id).isSome, ?_, fun id => ?_, ?_⟩
  · refine List.Pairwise.filter _ ?_
    rw [left]
    split
    · exact List.Pairwise.nil
    · exact idsFrom_ordered
  · rw [List.mem_filter, Option.isSome_iff_exists]
    constructor
    · rintro ⟨-, grp, hgrp⟩
      exact ⟨grp, wanted_eq_some.mp hgrp⟩
    · rintro ⟨grp, hgrp⟩
      obtain ⟨hpos, hle⟩ := hs.issued id grp hgrp.1
      refine ⟨?_, grp, wanted_eq_some.mpr hgrp⟩
      rw [left, if_neg (by omega)]
      exact mem_idsFrom_start.mpr ⟨hpos, hle⟩
  · rw [hflat]
    exact wanted_map _

/-- An upward search of a storage whose counter is the last `u64` never ends. -/
theorem fits_of_complete (hs : GroupStorage s)
    (hsort : params.sort = .createdDesc ∨ params.sort = .createdAsc) (h : Complete env s params)
    (hasc : params.sort = .createdAsc) : lastId s < u64Max := by
  obtain ⟨calls, ps, hps, -⟩ := h
  have hfits := Paging.pages_all (page env s params) (left s params) (Fits params) (fun c items next hpage => by
    obtain ⟨seen, rest, -, hleft, hfits, hend, hnext⟩ := page_some hs hsort hpage
    exact ⟨seen, rest, hleft, hfits, hend, fun c' hc' => (hnext c' hc').1⟩) hps
  by_cases hzero : lastId s = 0
  · rw [hzero]
    exact Nat.zero_lt_of_ne_zero (by decide)
  · refine hfits (lastId s) ?_ hasc
    rw [left, if_neg hzero]
    exact mem_idsFrom_start.mpr ⟨Nat.pos_of_ne_zero hzero, Nat.le_refl _⟩

/-- **PAGING LOSES AND REPEATS NOTHING**, exactly when the search goes down or the
    counter has not reached the last `u64`. -/
theorem search_pages_complete_iff (hs : GroupStorage s)
    (hsort : params.sort = .createdDesc ∨ params.sort = .createdAsc) :
    Complete env s params ↔ (params.sort = .createdAsc → lastId s < u64Max) :=
  ⟨fits_of_complete hs hsort, complete_of_fits hs hsort⟩

end Pages

/-! ## The storages of the contract -/

/-- No group has the id zero. -/
theorem zero_apply (x : Step) (s : State) (hs : Registry s ∧ groupAt s 0 = none) :
    Registry (apply x s) ∧ groupAt (apply x s) 0 = none := by
  refine apply_invariant (C := fun _ _ => True) (I := fun t => Registry t ∧ groupAt t 0 = none) ?_
    (fun _ h => ⟨⟨h.1.own, h.1.below⟩, h.2⟩) (fun _ _ h => ⟨⟨h.1.own, h.1.below⟩, h.2⟩) x s trivial hs
  rintro env c u v - ⟨hreg, hzero⟩ h
  refine ⟨registry_step hreg h, ?_⟩
  by_contra hsome
  rcases (grows_step hreg h).tags 0 (fun htag => hsome (tagAt_eq_none.mp htag)) with htag | hlt
  · exact htag (tagAt_eq_none.mpr hzero)
  · exact absurd hlt.1 (Nat.not_lt_zero _)

/-- A storage that obeys the layout, with its registry, can be searched. -/
theorem groupStorage_of {s : State} (hlaw : Obeys layout s) (hreg : Registry s)
    (hzero : groupAt s 0 = none) : GroupStorage s where
  counter := typed_of_obeys hlaw
  record _ := typed_of_obeys hlaw
  archived _ := typed_of_obeys hlaw
  issued id grp hgrp := by
    constructor
    · refine Nat.pos_of_ne_zero fun hid => ?_
      subst hid
      exact absurd (hzero.symm.trans hgrp) (by simp)
    · by_contra hlt
      exact absurd ((hreg.below id (Nat.lt_of_not_le hlt)).1.symm.trans hgrp) (by simp)

/-- Whatever is called, the storage is one a search can read. -/
theorem groupStorage_run (l : Ledger) (steps : List Step) : GroupStorage (run steps (deployed l)) := by
  have hreg := exec_invariant_always (I := fun t => Registry t ∧ groupAt t 0 = none) zero_apply
    ⟨registry_deployed l, rfl⟩ steps
  exact groupStorage_of (exec_invariant_always (I := Obeys layout) obeys_apply (obeys_deployed l) steps)
    hreg.1 hreg.2

/-- Every group, one at a time, oldest first. -/
def oldestFirst : SearchParams := ⟨none, none, none, none, none, 0, 1, .createdAsc⟩

/-- The example can be, and its one page is complete. -/
theorem fundedOpen_complete :
    GroupStorage fundedOpen ∧ Complete trioEnv fundedOpen oldestFirst := by
  have hs : GroupStorage fundedOpen := groupStorage_of fundedOpen_obeys fundedOpen_registry rfl
  exact ⟨hs, (search_pages_complete_iff hs (Or.inr rfl)).mpr fun _ =>
    (by decide : 1 < u64Max)⟩

/-- No groups, and the last `u64` handed out. -/
def exhausted : State := (deployed fun _ => none).set .cntNextG (Codec.encode (U64.mk u64Max))

/-- So can a storage whose ids are used up. -/
theorem exhausted_storage : GroupStorage exhausted where
  counter := typed_of_obeys (Obeys.set (obeys_deployed _) rfl)
  record _ := typed_of_obeys (Obeys.set (obeys_deployed _) rfl)
  archived _ := typed_of_obeys (Obeys.set (obeys_deployed _) rfl)
  issued _ _ h := nomatch h

/-- **THE LAST ID**: upwards past the last `u64` the search aborts, and paging never
    comes to an end. -/
theorem exhausted_aborts :
    GroupStorage exhausted ∧ ¬ Complete trioEnv exhausted oldestFirst :=
  ⟨exhausted_storage, fun h =>
    absurd (fits_of_complete exhausted_storage (Or.inr rfl) h rfl) (Nat.lt_irrefl u64Max)⟩

end SaveSearch
