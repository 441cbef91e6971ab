import Mathlib.Data.List.Basic

/-! # Paging — a scan cut into pages

    A page holds what is picked from a part of a list and says where the next one
    starts.  A reader asks for page after page, each from where the last one
    stopped.  Together the pages are what one scan without a limit would pick. -/

namespace Paging

variable {α β γ : Type}

/-- Page after page, at most `calls` of them: a page is its items and where the
    next one starts. -/
def pages (page : γ → Option (List β × Option γ)) : Nat → γ → Option (List (List β))
  | 0, _ => none
  | calls + 1, c =>
      match page c with
      | none => none
      | some (items, none) => some [items]
      | some (items, some next) => (pages page calls next).map (items :: ·)

variable (page : γ → Option (List β × Option γ)) (left : γ → List α)

/-- **NOTHING LOST, NOTHING REPEATED**: when each page, from the cursors a reader
    comes to, holds what is picked from the part it looks at and the next starts
    with the rest, which is shorter, the pages come to an end and hold what is
    picked from the whole. -/
theorem pages_complete_from (good : γ → Prop) (pick : α → Option β)
    (hpage : ∀ c, good c → ∃ seen rest next, page c = some (seen.filterMap pick, next)
      ∧ left c = seen ++ rest ∧ (next = none → rest = [])
      ∧ ∀ c', next = some c' → good c' ∧ left c' = rest ∧ seen ≠ [])
    {calls : Nat} {c : γ} (hgood : good c) (hcalls : (left c).length < calls) :
    ∃ ps, pages page calls c = some ps ∧ ps.flatten = (left c).filterMap pick := by
  induction calls generalizing c with
  | zero => exact absurd hcalls (Nat.not_lt_zero _)
  | succ calls ih =>
      obtain ⟨seen, rest, next, hc, hleft, hend, hnext⟩ := hpage c hgood
      cases next with
      | none =>
          refine ⟨[seen.filterMap pick], by rw [pages, hc], ?_⟩
          rw [hleft, hend rfl]
          simp
      | some c' =>
          obtain ⟨hgood', hrest, hseen⟩ := hnext c' rfl
          have hpos := List.length_pos_iff.mpr hseen
          have hlength := congrArg List.length hleft
          rw [List.length_append] at hlength
          obtain ⟨ps, hps, hflat⟩ := ih hgood' (by rw [hrest]; omega)
          refine ⟨seen.filterMap pick :: ps, by rw [pages, hc]; simp [hps], ?_⟩
          rw [List.flatten_cons, hflat, hrest, hleft, List.filterMap_append]

/-- The same where every cursor will do. -/
theorem pages_complete (pick : α → Option β)
    (hpage : ∀ c, ∃ seen rest next, page c = some (seen.filterMap pick, next) ∧ left c = seen ++ rest
      ∧ (next = none → rest = []) ∧ ∀ c', next = some c' → left c' = rest ∧ seen ≠ [])
    {calls : Nat} {c : γ} (hcalls : (left c).length < calls) :
    ∃ ps, pages page calls c = some ps ∧ ps.flatten = (left c).filterMap pick := by
  refine pages_complete_from page left (fun _ => True) pick (fun c _ => ?_) trivial hcalls
  obtain ⟨seen, rest, next, hc, hleft, hend, hnext⟩ := hpage c
  exact ⟨seen, rest, next, hc, hleft, hend, fun c' hc' => ⟨trivial, hnext c' hc'⟩⟩

/-- Pages that come to an end have a last one. -/
theorem pages_last (good : γ → Prop)
    (hpage : ∀ c items c', good c → page c = some (items, some c') → good c')
    {calls : Nat} {c : γ} {ps : List (List β)} (hgood : good c) (h : pages page calls c = some ps) :
    ∃ c' items, good c' ∧ page c' = some (items, none) := by
  induction calls generalizing c ps with
  | zero => exact absurd h (by simp [pages])
  | succ calls ih =>
      rw [pages] at h
      cases hc : page c with
      | none => simp [hc] at h
      | some found =>
          obtain ⟨items, next⟩ := found
          cases next with
          | none => exact ⟨c, items, hgood, hc⟩
          | some c' =>
              simp only [hc, Option.map_eq_some_iff] at h
              obtain ⟨qs, hqs, -⟩ := h
              exact ih (hpage c items c' hgood hc) hqs

/-- What every page says of the part it looks at holds of the whole, once the
    pages come to an end. -/
theorem pages_all (P : α → Prop)
    (hpage : ∀ c items next, page c = some (items, next) → ∃ seen rest, left c = seen ++ rest
      ∧ (∀ x ∈ seen, P x) ∧ (next = none → rest = []) ∧ ∀ c', next = some c' → left c' = rest)
    {calls : Nat} {c : γ} {ps : List (List β)} (h : pages page calls c = some ps) :
    ∀ x ∈ left c, P x := by
  induction calls generalizing c ps with
  | zero => exact absurd h (by simp [pages])
  | succ calls ih =>
      rw [pages] at h
      cases hc : page c with
      | none => simp [hc] at h
      | some found =>
          obtain ⟨items, next⟩ := found
          obtain ⟨seen, rest, hleft, hseen, hend, hnext⟩ := hpage c items next hc
          intro x hx
          rw [hleft] at hx
          rcases List.mem_append.mp hx with hx | hx
          · exact hseen x hx
          · cases next with
            | none => exact absurd (hend rfl ▸ hx) List.not_mem_nil
            | some c' =>
                simp only [hc, Option.map_eq_some_iff] at h
                obtain ⟨qs, hqs, -⟩ := h
                exact ih hqs x (hnext c' rfl ▸ hx)

/-! ## A page filled along a scan -/

section Fill

variable (pick : α → Option β) (room : Nat)

/-- What is picked goes on the page as long as there is room. -/
def fill (items : List β) (x : α) : List β :=
  if room ≤ items.length then items else items ++ (pick x).toList

theorem foldl_fill (items : List β) (xs : List α) :
    xs.foldl (fill pick room) items = items ++ (xs.filterMap pick).take (room - items.length) := by
  induction xs generalizing items with
  | nil => simp
  | cons x xs ih =>
      rw [List.foldl_cons, ih, fill]
      by_cases hfull : room ≤ items.length
      · rw [if_pos hfull, Nat.sub_eq_zero_of_le hfull]
        rfl
      · rw [if_neg hfull]
        cases hx : pick x with
        | none => simp [hx]
        | some y =>
            have hspace : room - items.length = room - (items.length + 1) + 1 := by omega
            rw [List.filterMap_cons_some hx, hspace, List.take_succ_cons, Option.toList_some,
              List.length_append, List.length_singleton, List.append_assoc, List.singleton_append]

/-- A page with something on it ends where its last item was picked. -/
theorem exists_last_picked {xs : List α} (hroom : 0 < room) (hsome : xs.filterMap pick ≠ []) :
    ∃ seen x rest y, xs = seen ++ x :: rest ∧ pick x = some y ∧
      (xs.filterMap pick).take room = (seen ++ [x]).filterMap pick ∧
      ((xs.filterMap pick).take room).getLast? = some y := by
  -- the first element may be picked, or passed over
  induction xs generalizing room with
  | nil => exact absurd rfl hsome
  | cons x xs ih =>
      cases hx : pick x with
      | none =>
          rw [List.filterMap_cons_none hx] at hsome ⊢
          obtain ⟨seen, z, rest, y, rfl, hz, htake, hlast⟩ := ih room hroom hsome
          refine ⟨x :: seen, z, rest, y, rfl, hz, ?_, hlast⟩
          rw [htake, List.cons_append, List.filterMap_cons_none hx]
      | some y =>
          rw [List.filterMap_cons_some hx]
          obtain ⟨n, rfl⟩ := Nat.exists_eq_succ_of_ne_zero (Nat.pos_iff_ne_zero.mp hroom)
          by_cases hrest : n = 0 ∨ xs.filterMap pick = []
          · -- the page ends here, for want of room or of items
            have hone : (y :: xs.filterMap pick).take (n + 1) = [y] := by
              rw [List.take_succ_cons]
              rcases hrest with rfl | hnil
              · rfl
              · rw [hnil, List.take_nil]
            refine ⟨[], x, xs, y, rfl, hx, ?_, ?_⟩
            · rw [hone, List.nil_append, List.filterMap_cons_some hx]
              rfl
            · rw [hone]
              rfl
          · obtain ⟨hn, hnil⟩ := not_or.mp hrest
            obtain ⟨seen, z, rest, w, rfl, hz, htake, hlast⟩ := ih n (Nat.pos_of_ne_zero hn) hnil
            refine ⟨x :: seen, z, rest, w, rfl, hz, ?_, ?_⟩
            · rw [List.take_succ_cons, htake, List.cons_append, List.filterMap_cons_some hx]
            · rw [List.take_succ_cons, List.getLast?_cons, hlast]
              rfl

end Fill

/-! ## A cursor that counts what came before -/

/-- A page from an offset; the next starts as many items on, and there is none
    after an empty page. -/
def byOffset (listing : Nat → Option (List β)) (offset : Nat) : Option (List β × Option Nat) :=
  (listing offset).map fun items =>
    (items, if items.isEmpty then none else some (offset + items.length))

section Offset

variable {listing : Nat → Option (List β)} {xs : List β} {room : Nat}

/-- **THE WHOLE LIST**, from pages that are slices of it. -/
theorem byOffset_complete (hroom : 0 < room)
    (hlisting : ∀ offset, offset ≤ xs.length → listing offset = some ((xs.drop offset).take room)) :
    ∃ ps, pages (byOffset listing) (xs.length + 1) 0 = some ps ∧ ps.flatten = xs := by
  have h := pages_complete_from (byOffset listing) (fun offset => xs.drop offset)
    (fun offset => offset ≤ xs.length) some ?_ (Nat.zero_le _) (c := 0)
    (by rw [List.drop_zero]; exact Nat.lt_succ_self _)
  · rwa [List.drop_zero, List.filterMap_some] at h
  · intro offset hoffset
    rw [byOffset, hlisting offset hoffset, Option.map_some]
    refine ⟨(xs.drop offset).take room, (xs.drop offset).drop room, _, by rw [List.filterMap_some],
      (List.take_append_drop ..).symm, ?_, ?_⟩
    · intro hnone
      by_cases hempty : ((xs.drop offset).take room).isEmpty
      · rw [List.isEmpty_iff, List.take_eq_nil_iff] at hempty
        rw [hempty.resolve_left (Nat.pos_iff_ne_zero.mp hroom), List.drop_nil]
      · rw [if_neg hempty] at hnone
        cases hnone
    · intro c' hc'
      by_cases hempty : ((xs.drop offset).take room).isEmpty
      · rw [if_pos hempty] at hc'
        cases hc'
      · rw [if_neg hempty] at hc'
        obtain rfl := Option.some.inj hc'
        rw [List.isEmpty_iff] at hempty
        rw [List.length_take, List.length_drop, List.drop_drop]
        refine ⟨by omega, ?_, hempty⟩
        -- a short page is the last one: the next starts at the end of the list
        by_cases hlast : room ≤ xs.length - offset
        · rw [Nat.min_eq_left hlast]
        · rw [Nat.min_eq_right (Nat.le_of_not_le hlast), Nat.add_sub_cancel' hoffset,
            List.drop_length, List.drop_of_length_le (by omega)]

/-- Nor does it come to an end but on a page from the end of the list. -/
theorem listing_end_of_pages (hroom : 0 < room)
    (hlisting : ∀ offset items, listing offset = some items → items = (xs.drop offset).take room)
    {calls : Nat} {ps : List (List β)} (h : pages (byOffset listing) calls 0 = some ps) :
    ∃ items, listing xs.length = some items := by
  -- an offset in range leads to one in range
  have hstep : ∀ offset items c', offset ≤ xs.length →
      byOffset listing offset = some (items, some c') → c' ≤ xs.length := by
    intro offset items c' hoffset hpage
    rw [byOffset, Option.map_eq_some_iff] at hpage
    obtain ⟨items', hitems, heq⟩ := hpage
    obtain ⟨rfl, hnext⟩ := Prod.mk.inj heq
    have hlength : items'.length ≤ xs.length - offset := by
      rw [hlisting offset items' hitems, List.length_take, List.length_drop]
      exact Nat.min_le_right ..
    by_cases hempty : items'.isEmpty
    · rw [if_pos hempty] at hnext
      cases hnext
    · rw [if_neg hempty] at hnext
      obtain rfl := Option.some.inj hnext
      show offset + items'.length ≤ xs.length
      omega
  -- the last page is the empty one, and it is at the end
  obtain ⟨c, items, hc, hlast⟩ := pages_last (byOffset listing) (· ≤ xs.length) hstep (Nat.zero_le _) h
  rw [byOffset, Option.map_eq_some_iff] at hlast
  obtain ⟨items', hitems, heq⟩ := hlast
  obtain ⟨rfl, hnone⟩ := Prod.mk.inj heq
  have hempty : items'.isEmpty := by
    by_contra hne
    rw [if_neg hne] at hnone
    cases hnone
  rw [hlisting c items' hitems, List.isEmpty_iff, List.take_eq_nil_iff] at hempty
  have hle := List.drop_eq_nil_iff.mp (hempty.resolve_left (Nat.pos_iff_ne_zero.mp hroom))
  exact ⟨items', (Nat.le_antisymm hc hle) ▸ hitems⟩

end Offset

/-! ## A cursor in places, a limit in items

    A page takes items from its window on, as many as the limit lets it, and says
    whether there were more; the reader steps by windows of as many places. -/

/-- The page of each window. -/
def windowPages (limit : Nat) : List (List β) → List (List β × Bool)
  | [] => []
  | w :: ws =>
      ((w :: ws).flatten.take limit, decide (limit < (w :: ws).flatten.length)) ::
        windowPages limit ws

/-- A page says there are more exactly when a later page holds something. -/
def Honest : List (List β × Bool) → Prop
  | [] => True
  | p :: ps => (p.2 = true ↔ ∃ q ∈ ps, q.1 ≠ []) ∧ Honest ps

/-- Each window is full, or nothing comes after it. -/
def Solid (limit : Nat) : List (List β) → Prop
  | [] => True
  | w :: ws => (w.length = limit ∨ ws.flatten = []) ∧ Solid limit ws

section Windows

variable {limit : Nat} {w : List β} {ws : List (List β)}

/-- Windows one after another make pages that hold something as long as one of
    them does. -/
theorem exists_page_ne_nil (hlimit : 0 < limit) :
    (∃ q ∈ windowPages limit ws, q.1 ≠ []) ↔ ws.flatten ≠ [] := by
  induction ws with
  | nil => simp [windowPages]
  | cons w ws ih =>
      have hhead : (w :: ws).flatten.take limit ≠ [] ↔ (w :: ws).flatten ≠ [] := by
        rw [Ne, List.take_eq_nil_iff, not_or]
        exact and_iff_right (Nat.pos_iff_ne_zero.mp hlimit)
      rw [windowPages]
      constructor
      · rintro ⟨q, hq, hne⟩
        rcases List.mem_cons.mp hq with rfl | hq
        · exact hhead.mp hne
        · intro hnil
          rw [List.flatten_cons, List.append_eq_nil_iff] at hnil
          exact ih.mp ⟨q, hq, hne⟩ hnil.2
      · intro hne
        exact ⟨_, List.mem_cons_self, hhead.mpr hne⟩

/-- A page holds at least what its window holds. -/
theorem length_flatten_le (hshort : ∀ w ∈ ws, w.length ≤ limit) :
    ws.flatten.length ≤ ((windowPages limit ws).map Prod.fst).flatten.length := by
  induction ws with
  | nil => exact Nat.le_refl _
  | cons w ws ih =>
      have hw := hshort w List.mem_cons_self
      have hrest := ih fun v hv => hshort v (List.mem_cons_of_mem _ hv)
      simp only [windowPages, List.map_cons, List.flatten_cons, List.length_append,
        List.length_take]
      omega

/-- Pages that together hold as much as the windows come of solid windows. -/
theorem solid_of_length (hshort : ∀ w ∈ ws, w.length ≤ limit)
    (h : ((windowPages limit ws).map Prod.fst).flatten.length ≤ ws.flatten.length) :
    Solid limit ws := by
  induction ws with
  | nil => trivial
  | cons w ws ih =>
      have hw := hshort w List.mem_cons_self
      have htail : ∀ v ∈ ws, v.length ≤ limit := fun v hv => hshort v (List.mem_cons_of_mem _ hv)
      have hrest := length_flatten_le htail
      simp only [windowPages, List.map_cons, List.flatten_cons, List.length_append,
        List.length_take] at h
      -- a window that is not full lets its page take from those behind it, which take it again
      refine ⟨?_, ih htail (by omega)⟩
      by_cases hnil : ws.flatten = []
      · exact .inr hnil
      · have hpos := List.length_pos_iff.mpr hnil
        exact .inl (by omega)

/-- Over solid windows the pages are the windows, and say rightly whether there
    are more. -/
theorem pages_of_solid (hlimit : 0 < limit) (hshort : ∀ w ∈ ws, w.length ≤ limit)
    (h : Solid limit ws) :
    ((windowPages limit ws).map Prod.fst).flatten = ws.flatten ∧ Honest (windowPages limit ws) := by
  -- a window that is not full is the last with anything in it
  induction ws with
  | nil => exact ⟨rfl, trivial⟩
  | cons w ws ih =>
      have hw := hshort w List.mem_cons_self
      obtain ⟨hfull, hsolid⟩ := h
      obtain ⟨hflat, hhonest⟩ := ih (fun v hv => hshort v (List.mem_cons_of_mem _ hv)) hsolid
      have hpage : (w :: ws).flatten.take limit = w := by
        rw [List.flatten_cons]
        rcases hfull with hfull | hnil
        · rw [← hfull, List.take_left]
        · rw [hnil, List.append_nil, List.take_of_length_le hw]
      have hmore : limit < (w :: ws).flatten.length ↔ ws.flatten ≠ [] := by
        rw [List.flatten_cons, List.length_append, ← List.length_pos_iff]
        rcases hfull with hfull | hnil
        · omega
        · simp only [hnil, List.length_nil]
          omega
      refine ⟨?_, ?_, hhonest⟩
      · show (w :: ws).flatten.take limit ++ ((windowPages limit ws).map Prod.fst).flatten = _
        rw [hpage, hflat, List.flatten_cons]
      · show decide (limit < (w :: ws).flatten.length) = true ↔ _
        rw [decide_eq_true_iff, hmore, exists_page_ne_nil hlimit]

/-- **WHEN WINDOWS MAKE GOOD PAGES**: together they hold every item once and say
    rightly whether there are more, exactly when no window but the last that holds
    anything has a gap. -/
theorem windowPages_iff (hlimit : 0 < limit) (hshort : ∀ w ∈ ws, w.length ≤ limit) :
    ((windowPages limit ws).map Prod.fst).flatten = ws.flatten ∧ Honest (windowPages limit ws) ↔
      Solid limit ws := by
  constructor
  · rintro ⟨hflat, -⟩
    exact solid_of_length hshort (Nat.le_of_eq (congrArg List.length hflat))
  · exact pages_of_solid hlimit hshort

end Windows

end Paging
