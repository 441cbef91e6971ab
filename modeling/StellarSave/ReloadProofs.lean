import StellarSave.BrowserCacheProofs

/-! # Reloading — what a new instance finds of the last one

    The constructor of `CacheService` (`frontend/src/utils/cache.ts`) walks up the indices
    of `localStorage` and removes items on the way, so that the item after each of them
    is passed over.  What it finds is right exactly when nothing of its own stands there. -/

namespace BrowserCache

open Trace Units
open TieredCache (Number)

variable {V : Type} (null : V)

/-- In memory are the unexpired entries under the prefix, and of the cache's own items these
    are left in the storage. -/
structure LoadsExactly (cachePrefix : JsString) (now : Nat) (content : LocalStorage V) (c : Cache V) : Prop where
  memory : ∀ key entry, c.memory key = some entry ↔ owns cachePrefix key = true ∧
    ∃ data expiry, (key, Text.entry data expiry) ∈ content.items ∧ expired now expiry = false ∧
      entry = ⟨data, expiry, true⟩
  storage : ∀ item ∈ content.items, owns cachePrefix item.1 = true →
    (item ∈ c.storage.items ↔ ∃ data expiry, item.2 = Text.entry data expiry ∧ expired now expiry = false)

/-- No own item directly follows one that is removed, none is empty, and what is not an
    entry is found expired. -/
structure Readable (cachePrefix : JsString) (now : Nat) (content : LocalStorage V) : Prop where
  apart : content.items.IsChain fun item next =>
    drops cachePrefix now item = true → ¬ owns cachePrefix next.1 = true
  written : ∀ item ∈ content.items, owns cachePrefix item.1 = true → item.2 ≠ .empty
  formed : ∀ item ∈ content.items, owns cachePrefix item.1 = true → ∀ e, item.2 = .other e →
    expired now e.expiry = true

/-- The condition of the two kinds of instance: one that does not use the storage loads
    nothing. -/
def Loadable (cachePrefix : JsString) (memoryOnly : Bool) (now : Nat) (content : LocalStorage V) : Prop :=
  if memoryOnly = true then ∀ item ∈ content.items, owns cachePrefix item.1 = false
  else Readable cachePrefix now content

/-- What `get` returns of an entry. -/
def Entry.shown (now : Nat) (e : Entry V) : V :=
  if e.truthy = true ∧ expired now e.expiry = false then e.data else null

/-- What a stored text gives when it is read back. -/
def Text.shown (now : Nat) (text : Text V) : V :=
  match text.parsed with
  | some e => e.shown null now
  | none => null

/-- The entry of a key has been saved: the storage has its text. -/
structure Saved (encode : Entry V → Text V) (prev : Cache V) (key : JsString) (e : Entry V) : Prop where
  memory : prev.memory (prev.getKey key) = some e
  storage : (prev.getKey key, encode e) ∈ prev.storage.items

section Loading

variable {cachePrefix key : JsString} {now : Nat} {content : LocalStorage V}

/-- Under one key there is one text. -/
theorem text_unique {s : LocalStorage V} {t u : Text V} (ht : (key, t) ∈ s.items) (hu : (key, u) ∈ s.items) :
    t = u := by
  have hinj := List.inj_on_of_nodup_map s.distinct ht hu rfl
  exact congrArg Prod.snd hinj

/-- All own items are seen when no own item follows one that is removed. -/
theorem seen_iff : (∀ item ∈ content.items, owns cachePrefix item.1 = true →
      item ∈ Walk.visited (drops cachePrefix now) content.items) ↔
    content.items.IsChain fun item next => drops cachePrefix now item = true → ¬ owns cachePrefix next.1 = true := by
  refine Walk.visited_all_iff (fun item => owns cachePrefix item.1 = true) (fun item hdrops => ?_)
    (nodup_items content)
  rw [drops, Bool.and_eq_true] at hdrops
  exact hdrops.1

/-- An own item is left exactly when it has not been seen or is not to be removed. -/
theorem mem_storage {item : JsString × Text V} (howns : owns cachePrefix item.1 = true)
    (hmem : item ∈ content.items) :
    item ∈ (construct cachePrefix false content now).storage.items ↔
      (item ∈ Walk.visited (drops cachePrefix now) content.items → item.2.removed now = false) := by
  show item ∈ (loadFromStorage cachePrefix now content).1 ↔ _
  rw [loadFromStorage_eq, Walk.mem_kept (nodup_items content)]
  have hdrops : drops cachePrefix now item = item.2.removed now := by
    rw [drops, howns]
    rfl
  rw [hdrops]
  exact ⟨fun h => h.2, fun h => ⟨hmem, h⟩⟩

theorem readable_of_exact
    (h : LoadsExactly cachePrefix now content (construct cachePrefix false content now)) :
    Readable cachePrefix now content where
  apart := by
    refine seen_iff.mp fun item hmem howns => ?_
    by_contra hseen
    -- a missed item stays, so that it is an entry, and then it is in memory
    obtain ⟨data, expiry, htext, hlive⟩ := (h.storage item hmem howns).mp
      ((mem_storage howns hmem).mpr fun hyes => absurd hyes hseen)
    have hmem' : (item.1, Text.entry data expiry) ∈ content.items := htext ▸ hmem
    have hmemory := (h.memory item.1 ⟨data, expiry, true⟩).mpr ⟨howns, data, expiry, hmem', hlive, rfl⟩
    obtain ⟨text, hvisited, -⟩ := (memory_loaded content).mp hmemory
    have hsame : text = item.2 := text_unique (Walk.mem_of_visited hvisited) hmem
    rw [hsame] at hvisited
    exact hseen hvisited
  written := by
    intro item hmem howns hempty
    have hleft : item ∈ (construct cachePrefix false content now).storage.items :=
      (mem_storage howns hmem).mpr fun _ => by rw [hempty]; rfl
    obtain ⟨data, expiry, htext, -⟩ := (h.storage item hmem howns).mp hleft
    exact nomatch hempty.symm.trans htext
  formed := by
    intro item hmem howns e hother
    by_contra hlive
    have hleft : item ∈ (construct cachePrefix false content now).storage.items := by
      refine (mem_storage howns hmem).mpr fun _ => ?_
      rw [hother]
      exact Bool.eq_false_iff.mpr hlive
    obtain ⟨data, expiry, htext, -⟩ := (h.storage item hmem howns).mp hleft
    exact nomatch hother.symm.trans htext

theorem exact_of_readable (h : Readable cachePrefix now content) :
    LoadsExactly cachePrefix now content (construct cachePrefix false content now) where
  memory := by
    intro key entry
    show (loadFromStorage cachePrefix now content).2 key = some entry ↔ _
    rw [memory_loaded]
    -- what is loaded is in the storage and alive, and the other way round
    constructor
    · rintro ⟨text, hvisited, hloaded⟩
      have hmem := Walk.mem_of_visited hvisited
      refine ⟨hloaded.owns, ?_⟩
      cases text with
      | empty => exact nomatch hloaded.parsed
      | broken => exact nomatch hloaded.parsed
      | entry data expiry => exact ⟨data, expiry, hmem, hloaded.fresh, (Option.some.inj hloaded.parsed).symm⟩
      | other e =>
          have hexpired := h.formed _ hmem hloaded.owns e rfl
          exact nomatch hexpired.symm.trans hloaded.fresh
    · rintro ⟨howns, data, expiry, hmem, hlive, rfl⟩
      exact ⟨.entry data expiry, seen_iff.mpr h.apart _ hmem howns, howns, hlive, rfl⟩
  storage := by
    intro item hmem howns
    rw [mem_storage howns hmem]
    have hseen := seen_iff.mpr h.apart item hmem howns
    obtain ⟨key, text⟩ := item
    -- an item that is broken or out of date was dropped
    constructor
    · intro hstays
      have hfresh : text.removed now = false := hstays hseen
      cases text with
      | empty => exact absurd rfl (h.written _ hmem howns)
      | broken => exact nomatch hfresh
      | entry data expiry => exact ⟨data, expiry, rfl, hfresh⟩
      | other e =>
          have hexpired := h.formed _ hmem howns e rfl
          exact nomatch hexpired.symm.trans hfresh
    · rintro ⟨data, expiry, htext, hlive⟩ -
      obtain rfl : text = .entry data expiry := htext
      exact hlive

/-- **WHAT IS LOADED** is exact when, and only when, nothing own is passed over or misread. -/
theorem loads_exactly_iff (cachePrefix : JsString) (memoryOnly : Bool) (content : LocalStorage V) (now : Nat) :
    LoadsExactly cachePrefix now content (construct cachePrefix memoryOnly content now) ↔
      Loadable cachePrefix memoryOnly now content := by
  rw [Loadable]
  cases memoryOnly with
  | false =>
      rw [if_neg Bool.false_ne_true]
      exact ⟨readable_of_exact, exact_of_readable⟩
  | true =>
      rw [if_pos rfl]
      constructor
      · intro h item hmem
        by_contra howns
        rw [Bool.not_eq_false] at howns
        obtain ⟨data, expiry, htext, hlive⟩ := (h.storage item hmem howns).mp hmem
        have hmem' : (item.1, Text.entry data expiry) ∈ content.items := htext ▸ hmem
        exact nomatch (h.memory item.1 ⟨data, expiry, true⟩).mpr ⟨howns, data, expiry, hmem', hlive, rfl⟩
      · intro hnone
        refine ⟨fun key entry => ?_, fun item hmem howns => (nomatch (hnone item hmem).symm.trans howns)⟩
        refine iff_of_false nofun ?_
        rintro ⟨howns, data, expiry, hmem, -⟩
        exact nomatch (hnone _ hmem).symm.trans howns

end Loading

/-! ## What the new instance returns -/

/-- An instance at a later time. -/
def Cache.later (c : Cache V) (t : Nat) : Cache V := { c with now := t }

section Reading

variable {cachePrefix : JsString} {memoryOnly : Bool} {now t : Nat} {content : LocalStorage V}
  {prev : Cache V} {key : JsString} {e : Entry V}

/-- What has expired stays so. -/
theorem expired_mono {n : Number} (ht : now ≤ t) (h : expired now n = true) : expired t n = true := by
  cases n with
  | nan => exact h
  | negInfinity => exact h
  | infinity => exact h
  | finite ms =>
      have hlt : ms < (now : ℚ) := of_decide_eq_true h
      have hle : (now : ℚ) ≤ t := by exact_mod_cast ht
      exact decide_eq_true (hlt.trans_le hle)

theorem shown_expired (h : expired t e.expiry = true) : e.shown null t = null := by
  rw [Entry.shown, if_neg]
  rintro ⟨-, hlive⟩
  exact nomatch h.symm.trans hlive

theorem get_some (h : prev.memory (prev.getKey key) = some e) :
    ((prev.later t).get null key).1 = e.shown null t := by
  rw [Cache.get, show (prev.later t).memory ((prev.later t).getKey key) = some e from h, Entry.shown]
  show (if e.truthy = true ∧ expired t e.expiry = false then (e.data, _) else (null, _)).1 = _
  split
  · rfl
  · rfl

theorem get_none (h : prev.memory (prev.getKey key) = none) : ((prev.later t).get null key).1 = null := by
  rw [Cache.get, show (prev.later t).memory ((prev.later t).getKey key) = none from h]

/-- Where loading is right, the new instance shows of each own item what its text gives. -/
theorem get_loaded (h : Loadable cachePrefix memoryOnly now content) (ht : now ≤ t) {text : Text V}
    (hmem : (cachePrefix ++ key, text) ∈ content.items) :
    (((construct cachePrefix memoryOnly content now).later t).get null key).1 = text.shown null t := by
  have howns : owns cachePrefix (cachePrefix ++ key) = true := owns_append cachePrefix key
  have hexact := (loads_exactly_iff cachePrefix memoryOnly content now).mpr h
  have hkey : (construct cachePrefix memoryOnly content now).getKey key = cachePrefix ++ key := by
    rw [Cache.getKey, cachePrefix_construct]
  cases hentry : (construct cachePrefix memoryOnly content now).memory (cachePrefix ++ key) with
  | some entry =>
      obtain ⟨-, data, expiry, hmem', -, rfl⟩ := (hexact.memory _ entry).mp hentry
      obtain rfl := text_unique hmem hmem'
      exact get_some null (by rw [hkey]; exact hentry)
  | none =>
      rw [get_none null (by rw [hkey]; exact hentry)]
      -- the text is none that is loaded, and shows nothing now or later
      cases memoryOnly with
      | true => exact nomatch (h _ hmem : owns cachePrefix (cachePrefix ++ key) = false).symm.trans howns
      | false =>
          have hreadable : Readable cachePrefix now content := h
          cases text with
          | empty => exact absurd rfl (hreadable.written _ hmem howns)
          | broken => rfl
          | entry data expiry =>
              cases hexpired : expired now expiry with
              | true => exact (shown_expired null (expired_mono ht hexpired)).symm
              | false =>
                  have hloaded := (hexact.memory _ ⟨data, expiry, true⟩).mpr
                    ⟨howns, data, expiry, hmem, hexpired, rfl⟩
                  exact nomatch hentry.symm.trans hloaded
          | other e =>
              have hexpired := hreadable.formed _ hmem howns e rfl
              exact (shown_expired null (expired_mono ht hexpired)).symm

end Reading

theorem mem_setItem (key : JsString) (text : Text V) (s : LocalStorage V) :
    (key, text) ∈ (s.setItem key text).items := by
  rw [LocalStorage.setItem]
  split
  · next hmem =>
      obtain ⟨item, hitem, hkey⟩ := List.mem_map.mp hmem
      exact List.mem_map.mpr ⟨item, hitem, if_pos hkey⟩
  · exact List.mem_append_right _ List.mem_cons_self

/-- A text that could be made goes to the storage. -/
theorem saveToStorage_some {c : Cache V} (h : c.memoryOnly = false) (key : JsString) (text : Text V) :
    c.saveToStorage key (some text) = { c with storage := c.storage.setItem key text } :=
  if_neg (by rw [h]; exact Bool.false_ne_true)

/-- What `set` could store has been saved. -/
theorem set_saved (encode : Entry V → Text V) {c : Cache V} (h : c.memoryOnly = false) (key : JsString)
    (value : V) (ttlMs : Number) :
    Saved encode (c.set key value ttlMs (some (encode ⟨value, ttlMs.after c.now, true⟩))) key
      ⟨value, ttlMs.after c.now, true⟩ := by
  rw [Cache.set, saveToStorage_some]
  · refine ⟨?_, ?_⟩
    · exact if_pos rfl
    · exact mem_setItem (c.getKey key) _ c.storage
  · exact h

/-- The new instance returns, now and later, what the last one would for each saved entry. -/
def Survives (encode : Entry V → Text V) (prev next : Cache V) : Prop :=
  ∀ key e, Saved encode prev key e → ∀ t, prev.now ≤ t →
    ((next.later t).get null key).1 = ((prev.later t).get null key).1

/-- **THE CACHE SURVIVES A RELOAD** exactly when no own item stands where the loader passes one
    over or misreads it, and each saved text reads back as its entry. -/
theorem reload_iff (encode : Entry V → Text V) (memoryOnly : Bool) (prev : Cache V) :
    (LoadsExactly prev.cachePrefix prev.now prev.storage
        (construct prev.cachePrefix memoryOnly prev.storage prev.now) ∧
      Survives null encode prev (construct prev.cachePrefix memoryOnly prev.storage prev.now)) ↔
      Loadable prev.cachePrefix memoryOnly prev.now prev.storage ∧
        ∀ key e, Saved encode prev key e → ∀ t, prev.now ≤ t →
          (encode e).shown null t = e.shown null t := by
  rw [loads_exactly_iff, Survives]
  refine and_congr_right fun hloadable => ?_
  refine forall_congr' fun key => forall_congr' fun e => forall_congr' fun hsaved => ?_
  refine forall_congr' fun t => forall_congr' fun ht => ?_
  rw [get_loaded null hloadable ht hsaved.storage, get_some null hsaved.memory]

/-- An expired item, and one behind it that has not expired. -/
def twoItems : LocalStorage Nat :=
  ⟨[(lit "ss-cache_a", .entry 1 (.finite 5)), (lit "ss-cache_b", .entry 2 (.finite 100))], by decide⟩

/-- The second is not loaded. -/
theorem live_item_missed :
    ¬ LoadsExactly (lit "ss-cache_") 10 twoItems (construct (lit "ss-cache_") false twoItems 10) := by
  intro h
  have hloaded := (h.memory (lit "ss-cache_b") ⟨2, .finite 100, true⟩).mpr
    ⟨by decide, 2, .finite 100, by decide, by decide, rfl⟩
  have hmissed : (construct (lit "ss-cache_") false twoItems 10).memory (lit "ss-cache_b") = none := by
    decide
  exact nomatch hmissed.symm.trans hloaded

end BrowserCache
