import StellarSave.WalkProofs
import StellarSave.UnitsProofs
import StellarSave.TieredCacheProofs

/-! # The browser cache — a map in memory, and a storage that others use

    `CacheService` (`frontend/src/utils/cache.ts`).  Entries are kept in memory and under
    a prefix in `localStorage`, which belongs to the whole page.  Whatever is said of the
    storage by key is said of everybody's keys. -/

namespace BrowserCache

open Trace Units
open TieredCache (Number)

/-- What is kept for a key; `truthy` is what `!entry` asks. -/
structure Entry (V : Type) where
  data : V
  expiry : Number
  truthy : Bool
  deriving DecidableEq

/-- A stored text, by what reading it gives: the empty text, one that throws, an entry as
    `set` makes them, or something else that stands where an entry should. -/
inductive Text (V : Type) where
  | empty
  | broken
  | entry (data : V) (expiry : Number)
  | other (e : Entry V)
  deriving DecidableEq

/-- `localStorage`: its items by index, no two under one key. -/
structure LocalStorage (V : Type) where
  items : List (JsString × Text V)
  distinct : (items.map Prod.fst).Nodup

variable {V : Type}

namespace LocalStorage

def keys (s : LocalStorage V) : List JsString := s.items.map Prod.fst

/-- `getItem`. -/
def getItem (key : JsString) (s : LocalStorage V) : Option (Text V) :=
  (s.items.find? fun item => decide (item.1 = key)).map Prod.snd

/-- Items that are dropped leave the keys without repetition. -/
theorem distinct_filter (s : LocalStorage V) (p : JsString × Text V → Bool) :
    ((s.items.filter p).map Prod.fst).Nodup :=
  s.distinct.sublist (List.Sublist.map _ List.filter_sublist)

/-- `removeItem`. -/
def removeItem (key : JsString) (s : LocalStorage V) : LocalStorage V :=
  ⟨Walk.remove Prod.fst key s.items, s.distinct_filter _⟩

/-- To put another text under a key leaves the row of the keys as it is. -/
theorem keys_replace (s : LocalStorage V) (key : JsString) (text : Text V) :
    (s.items.map fun item => if item.1 = key then (key, text) else item).map Prod.fst =
      s.items.map Prod.fst := by
  rw [List.map_map]
  refine List.map_congr_left fun item _ => ?_
  show (if item.1 = key then (key, text) else item).1 = item.1
  split
  · next h => exact h.symm
  · rfl

/-- So the keys stay without repetition when a key that is there is written. -/
theorem distinct_set (s : LocalStorage V) (key : JsString) (text : Text V) :
    ((s.items.map fun item => if item.1 = key then (key, text) else item).map Prod.fst).Nodup := by
  rw [s.keys_replace]
  exact s.distinct

/-- And when a key that is not there is added at the end. -/
theorem distinct_append (s : LocalStorage V) {key : JsString} (text : Text V) (h : key ∉ s.keys) :
    ((s.items ++ [(key, text)]).map Prod.fst).Nodup := by
  rw [List.map_append, List.nodup_append]
  refine ⟨s.distinct, List.nodup_singleton _, ?_⟩
  intro a ha b hb hab
  rw [List.map_singleton, List.mem_singleton] at hb
  rw [hab, show b = key from hb] at ha
  exact h ha

/-- `setItem`: an item of that key gets the text, or a new one has it. -/
def setItem (key : JsString) (text : Text V) (s : LocalStorage V) : LocalStorage V :=
  if h : key ∈ s.keys then
    ⟨s.items.map fun item => if item.1 = key then (key, text) else item, s.distinct_set key text⟩
  else ⟨s.items ++ [(key, text)], s.distinct_append text h⟩

/-- A sweep by index from the top only drops items. -/
theorem distinct_walkDown (drop : JsString × Text V → Bool) (n : Nat) {items : List (JsString × Text V)}
    (h : (items.map Prod.fst).Nodup) : ((Walk.walkDown Prod.fst drop n items).map Prod.fst).Nodup := by
  induction n generalizing items with
  | zero => exact h
  | succ n ih =>
      rw [Walk.walkDown]
      split
      · exact ih h
      · refine ih ?_
        split
        · exact h.sublist (List.Sublist.map _ List.filter_sublist)
        · exact h

/-- The loop of `invalidate` and of `clear`, from the last index down. -/
def sweep (drop : JsString → Bool) (s : LocalStorage V) : LocalStorage V :=
  ⟨Walk.walkDown Prod.fst (fun item => drop item.1) s.items.length s.items,
    distinct_walkDown _ _ s.distinct⟩

end LocalStorage

/-- An instance, the storage, and the time. -/
structure Cache (V : Type) where
  cachePrefix : JsString
  memoryOnly : Bool
  memory : JsString → Option (Entry V)
  storage : LocalStorage V
  now : Nat

/-- `Date.now() > entry.expiry`. -/
def expired (now : Nat) : Number → Bool
  | .finite ms => decide (ms < (now : ℚ))
  | .negInfinity => true
  | .infinity => false
  | .nan => false

/-- `key.startsWith(prefix)`. -/
def owns (cachePrefix key : JsString) : Bool := cachePrefix.isPrefixOf key

/-- `memoryCache.set`. -/
def remember (key : JsString) (entry : Entry V) (memory : JsString → Option (Entry V)) :
    JsString → Option (Entry V) :=
  fun k => if k = key then some entry else memory k

/-- `memoryCache.delete`. -/
def forget (drop : JsString → Bool) (memory : JsString → Option (Entry V)) : JsString → Option (Entry V) :=
  fun k => if drop k = true then none else memory k

/-! ## Loading -/

/-- The entry that `JSON.parse` gives, if it does not throw and the text is not empty. -/
def Text.parsed : Text V → Option (Entry V)
  | .empty => none
  | .broken => none
  | .entry data expiry => some ⟨data, expiry, true⟩
  | .other e => some e

/-- A text that the loader removes. -/
def Text.removed (now : Nat) (text : Text V) : Bool :=
  match text with
  | .empty => false
  | .broken => true
  | .entry _ expiry => expired now expiry
  | .other e => expired now e.expiry

/-- One round of the loader, on the item at its index. -/
def loads (cachePrefix : JsString) (now : Nat) (item : JsString × Text V)
    (memory : JsString → Option (Entry V)) : JsString → Option (Entry V) :=
  if owns cachePrefix item.1 = true ∧ item.2.removed now = false then
    match item.2.parsed with
    | some entry => remember item.1 entry memory
    | none => memory
  else memory

/-- So does one from the bottom, whichever items it skips. -/
theorem distinct_walkUp {β : Type} (drop : JsString × Text V → Bool) (visit : JsString × Text V → β → β)
    (rounds i : Nat) {items : List (JsString × Text V)} (h : (items.map Prod.fst).Nodup) (acc : β) :
    ((Walk.walkUp Prod.fst drop visit rounds i items acc).1.map Prod.fst).Nodup := by
  induction rounds generalizing i items acc with
  | zero => exact h
  | succ rounds ih =>
      rw [Walk.walkUp]
      split
      · exact h
      · refine ih _ ?_ _
        split
        · exact h.sublist (List.Sublist.map _ List.filter_sublist)
        · exact h

/-- What the loader removes: own items that are expired or throw. -/
def drops (cachePrefix : JsString) (now : Nat) (item : JsString × Text V) : Bool :=
  owns cachePrefix item.1 && item.2.removed now

/-- The loop of `_loadFromStorage`. -/
def loadFromStorage (cachePrefix : JsString) (now : Nat) (s : LocalStorage V) :
    List (JsString × Text V) × (JsString → Option (Entry V)) :=
  Walk.walkUp Prod.fst (drops cachePrefix now) (loads cachePrefix now) s.items.length 0 s.items
    fun _ => none

/-- The constructor. -/
def construct (cachePrefix : JsString) (memoryOnly : Bool) (content : LocalStorage V) (now : Nat) : Cache V :=
  if memoryOnly = true then ⟨cachePrefix, true, fun _ => none, content, now⟩
  else ⟨cachePrefix, false, (loadFromStorage cachePrefix now content).2,
    ⟨(loadFromStorage cachePrefix now content).1, distinct_walkUp _ _ _ _ content.distinct _⟩, now⟩

/-! ## Using it -/

variable (null : V)

/-- `getKey`. -/
def Cache.getKey (c : Cache V) (key : JsString) : JsString := c.cachePrefix ++ key

/-- `delete`. -/
def Cache.delete (key : JsString) (c : Cache V) : Cache V :=
  { c with
    memory := forget (fun k => decide (k = c.getKey key)) c.memory
    storage := if c.memoryOnly = true then c.storage else c.storage.removeItem (c.getKey key) }

/-- `get`. -/
def Cache.get (key : JsString) (c : Cache V) : V × Cache V :=
  match c.memory (c.getKey key) with
  | some entry =>
      if entry.truthy = true ∧ expired c.now entry.expiry = false then (entry.data, c)
      else (null, c.delete key)
  | none => (null, c.delete key)

/-- `_saveToStorage`; nothing is written where the text cannot be made or stored. -/
def Cache.saveToStorage (key : JsString) (written : Option (Text V)) (c : Cache V) : Cache V :=
  if c.memoryOnly = true then c
  else match written with
    | some text => { c with storage := c.storage.setItem key text }
    | none => { c with memoryOnly := true }

/-- `set`. -/
def Cache.set (key : JsString) (value : V) (ttlMs : Number) (written : Option (Text V)) (c : Cache V) :
    Cache V :=
  { c with memory := remember (c.getKey key) ⟨value, ttlMs.after c.now, true⟩ c.memory }.saveToStorage
    (c.getKey key) written

/-- What `invalidate` takes: nothing, or a text that is not empty, for a pattern. -/
def matchesPattern (cachePrefix : JsString) (pattern : Option JsString) (key : JsString) : Bool :=
  match pattern with
  | some (c :: cs) => (cachePrefix ++ (c :: cs) ++ lit "_").isPrefixOf key || decide ((c :: cs) <:+: key)
  | some [] => cachePrefix.isPrefixOf key
  | none => cachePrefix.isPrefixOf key

/-- `invalidate`. -/
def Cache.invalidate (pattern : Option JsString) (c : Cache V) : Cache V :=
  { c with
    memory := forget (matchesPattern c.cachePrefix pattern) c.memory
    storage := if c.memoryOnly = true then c.storage else c.storage.sweep (matchesPattern c.cachePrefix pattern) }

/-- `clear`. -/
def Cache.clear (c : Cache V) : Cache V :=
  { c with
    memory := fun _ => none
    storage := if c.memoryOnly = true then c.storage else c.storage.sweep (owns c.cachePrefix) }

/-- The calls, and time; `written` is what `setItem` stores, if it does not throw. -/
inductive Event (V : Type) where
  | set (key : JsString) (value : V) (ttlMs : Number) (written : Option (Text V))
  | get (key : JsString)
  | delete (key : JsString)
  | invalidate (pattern : Option JsString)
  | clear
  | pass (ms : Nat)

def step : Event V → Cache V → Cache V
  | .set key value ttlMs written, c => c.set key value ttlMs written
  | .get key, c => (c.get null key).2
  | .delete key, c => c.delete key
  | .invalidate pattern, c => c.invalidate pattern
  | .clear, c => c.clear
  | .pass ms, c => { c with now := c.now + ms }

/-! ## What belongs to others -/

/-- Memory and storage have the same of the cache's keys. -/
def Agree (c : Cache V) : Prop :=
  ∀ key, owns c.cachePrefix key = true → ((c.memory key).isSome = true ↔ key ∈ c.storage.keys)

/-- No pattern is found in a key of others, and each own key outside the pattern is in
    both places or in neither. -/
def Clean (x : Event V) (c : Cache V) : Prop :=
  match x with
  | .invalidate pattern =>
      (c.memoryOnly = false → ∀ key ∈ c.storage.keys,
        matchesPattern c.cachePrefix pattern key = true → owns c.cachePrefix key = true) ∧
      (c.memoryOnly = false → ∀ key ∈ c.storage.keys, owns c.cachePrefix key = true →
        matchesPattern c.cachePrefix pattern key = false → (c.memory key).isSome = true) ∧
      (c.memoryOnly = true → ∀ key, owns c.cachePrefix key = true → (key ∈ c.storage.keys ↔
        (c.memory key).isSome = true ∧ matchesPattern c.cachePrefix pattern key = false))
  | _ => True

/-- What is in memory is the cache's own, and is stored where the storage is used. -/
def Kept (c : Cache V) : Prop :=
  ∀ key, (c.memory key).isSome = true →
    owns c.cachePrefix key = true ∧ (c.memoryOnly = false → key ∈ c.storage.keys)

section Storage

variable {s : LocalStorage V} {cachePrefix key k : JsString} {text : Text V} {drop : JsString → Bool}

/-- Every key the cache builds carries its prefix. -/
theorem owns_append (cachePrefix key : JsString) : owns cachePrefix (cachePrefix ++ key) = true :=
  List.isPrefixOf_iff_prefix.mpr (List.prefix_append cachePrefix key)

/-- A removal takes its own key away, and no other. -/
theorem mem_keys_removeItem : k ∈ (s.removeItem key).keys ↔ k ∈ s.keys ∧ k ≠ key := by
  show k ∈ (s.items.filter _).map Prod.fst ↔ k ∈ s.items.map Prod.fst ∧ k ≠ key
  simp only [List.mem_map, List.mem_filter, decide_eq_true_eq]
  constructor
  · rintro ⟨item, ⟨hmem, hne⟩, rfl⟩
    exact ⟨⟨item, hmem, rfl⟩, hne⟩
  · rintro ⟨⟨item, hmem, rfl⟩, hne⟩
    exact ⟨item, ⟨hmem, hne⟩, rfl⟩

/-- A write adds its own key, and no other. -/
theorem mem_keys_setItem : k ∈ (s.setItem key text).keys ↔ k = key ∨ k ∈ s.keys := by
  rw [LocalStorage.setItem]
  split
  · next hmem =>
      show k ∈ (s.items.map _).map Prod.fst ↔ _
      rw [s.keys_replace]
      refine ⟨fun h => Or.inr h, ?_⟩
      rintro (rfl | h)
      · exact hmem
      · exact h
  · show k ∈ (s.items ++ [(key, text)]).map Prod.fst ↔ k = key ∨ k ∈ s.items.map Prod.fst
    rw [List.map_append, List.mem_append, List.map_singleton, List.mem_singleton]
    exact Or.comm

/-- A sweep from the top skips nobody: it drops exactly the items whose key is to go. -/
theorem items_sweep (s : LocalStorage V) (drop : JsString → Bool) :
    (s.sweep drop).items = s.items.filter fun item => !drop item.1 := Walk.walkDown_eq s.distinct

/-- The keys a sweep leaves are those it was not to drop. -/
theorem mem_keys_sweep : k ∈ (s.sweep drop).keys ↔ k ∈ s.keys ∧ drop k = false := by
  show k ∈ (s.sweep drop).items.map Prod.fst ↔ k ∈ s.items.map Prod.fst ∧ drop k = false
  rw [items_sweep]
  simp only [List.mem_map, List.mem_filter, Bool.not_eq_true']
  constructor
  · rintro ⟨item, ⟨hmem, hstays⟩, rfl⟩
    exact ⟨⟨item, hmem, rfl⟩, hstays⟩
  · rintro ⟨⟨item, hmem, rfl⟩, hstays⟩
    exact ⟨item, ⟨hmem, hstays⟩, rfl⟩

end Storage

section Steps

variable {c : Cache V} {x : Event V} {key k : JsString}

/-- The memory holds what it held, and the entry just remembered. -/
theorem memory_remember {memory : JsString → Option (Entry V)} {entry : Entry V}
    (h : (remember key entry memory k).isSome = true) : k = key ∨ (memory k).isSome = true := by
  rw [remember] at h
  split at h
  · next hk => exact Or.inl hk
  · exact Or.inr h

/-- The memory forgets exactly the keys it was told to. -/
theorem memory_forget {memory : JsString → Option (Entry V)} {drop : JsString → Bool} :
    (forget drop memory k).isSome = true ↔ drop k = false ∧ (memory k).isSome = true := by
  rw [forget]
  cases drop k with
  | true => simp
  | false => simp

/-- A deletion goes to the memory and to the storage alike. -/
theorem kept_delete (h : Kept c) (key : JsString) : Kept (c.delete key) := by
  intro k hk
  have hforget : (forget (fun k => decide (k = c.getKey key)) c.memory k).isSome = true := hk
  obtain ⟨hother, hmemory⟩ := memory_forget.mp hforget
  obtain ⟨howns, hstored⟩ := h k hmemory
  refine ⟨howns, fun honly => ?_⟩
  show k ∈ (if c.memoryOnly = true then c.storage else c.storage.removeItem (c.getKey key)).keys
  rw [if_neg (by rw [show c.memoryOnly = false from honly]; exact Bool.false_ne_true), mem_keys_removeItem]
  exact ⟨hstored honly, of_decide_eq_false hother⟩

/-- What is set in the storage is in the memory; a storage that refuses it has one item less
    to agree on. -/
theorem kept_set (h : Kept c) (key : JsString) (value : V) (ttlMs : Number) (written : Option (Text V)) :
    Kept (c.set key value ttlMs written) := by
  rw [Cache.set, Cache.saveToStorage.eq_def]
  split
  · next honly =>
      intro k hk
      refine ⟨?_, fun hused => absurd honly (by rw [show c.memoryOnly = false from hused]; exact nofun)⟩
      obtain rfl | hold := memory_remember hk
      · exact owns_append _ _
      · exact (h k hold).1
  · split
    · next text =>
        intro k hk
        obtain rfl | hold := memory_remember hk
        · exact ⟨owns_append _ _, fun _ => mem_keys_setItem.mpr (Or.inl rfl)⟩
        · obtain ⟨howns, hstored⟩ := h k hold
          exact ⟨howns, fun honly => mem_keys_setItem.mpr (Or.inr (hstored honly))⟩
    · intro k hk
      refine ⟨?_, fun hused => nomatch hused⟩
      obtain rfl | hold := memory_remember hk
      · exact owns_append _ _
      · exact (h k hold).1

/-- `invalidate` and `clear` go through both by the same keys. -/
theorem kept_sweep (h : Kept c) (drop : JsString → Bool) :
    Kept { c with
      memory := forget drop c.memory
      storage := if c.memoryOnly = true then c.storage else c.storage.sweep drop } := by
  intro k hk
  obtain ⟨hstays, hmemory⟩ := memory_forget.mp hk
  obtain ⟨howns, hstored⟩ := h k hmemory
  refine ⟨howns, fun honly => ?_⟩
  show k ∈ (if c.memoryOnly = true then c.storage else c.storage.sweep drop).keys
  rw [if_neg (by rw [show c.memoryOnly = false from honly]; exact Bool.false_ne_true), mem_keys_sweep]
  exact ⟨hstored honly, hstays⟩

/-- **WHAT IS IN MEMORY** stays the cache's own, whatever is called. -/
theorem step_kept (x : Event V) (h : Kept c) : Kept (step null x c) := by
  cases x with
  | set key value ttlMs written => exact kept_set h key value ttlMs written
  | get key =>
      rw [step, Cache.get]
      split
      · split
        · exact h
        · exact kept_delete h key
      · exact kept_delete h key
  | delete key => exact kept_delete h key
  | invalidate pattern => exact kept_sweep h _
  | clear => exact fun k hk => nomatch hk
  | pass ms => exact h

end Steps

/-! ## Every run -/

section Runs

variable {c : Cache V}

end Runs

/-! ## After the constructor -/

/-- The loader makes this entry of the item when it sees it. -/
structure Loaded (cachePrefix : JsString) (now : Nat) (item : JsString × Text V) (entry : Entry V) : Prop where
  owns : owns cachePrefix item.1 = true
  fresh : item.2.removed now = false
  parsed : item.2.parsed = some entry

section Loading

variable {cachePrefix key : JsString} {now : Nat} {item : JsString × Text V} {entry : Entry V}
  {memory : JsString → Option (Entry V)} {items : List (JsString × Text V)} {s : LocalStorage V}

/-- An item that is the cache's own, parses and is not out of date is remembered. -/
theorem loads_loaded (h : Loaded cachePrefix now item entry) :
    loads cachePrefix now item memory = remember item.1 entry memory := by
  rw [loads, if_pos ⟨h.owns, h.fresh⟩, h.parsed]

/-- Any other is passed over. -/
theorem loads_other (h : ∀ entry, ¬ Loaded cachePrefix now item entry) :
    loads cachePrefix now item memory = memory := by
  rw [loads]
  split
  · next hseen =>
      cases hparsed : item.2.parsed with
      | none => rfl
      | some entry => exact absurd ⟨hseen.1, hseen.2, hparsed⟩ (h entry)
  · rfl

/-- What the loader has in memory comes from an item that it has seen. -/
theorem foldl_loads (h : (items.map Prod.fst).Nodup) :
    items.foldl (fun memory item => loads cachePrefix now item memory) (fun _ => none) key = some entry ↔
      ∃ text, (key, text) ∈ items ∧ Loaded cachePrefix now (key, text) entry := by
  -- by induction from the end: a later item of the same key would win, but there is none
  induction items using List.reverseRecOn with
  | nil => simp
  | append_singleton items item ih =>
      rw [List.map_append, List.nodup_append] at h
      obtain ⟨hitems, -, hapart⟩ := h
      have hfresh : ∀ text, (item.1, text) ∉ items := fun text hmem =>
        hapart item.1 (List.mem_map.mpr ⟨_, hmem, rfl⟩) item.1 (by simp) rfl
      rw [List.foldl_append]
      show loads cachePrefix now item _ key = some entry ↔ _
      by_cases hloaded : ∃ e, Loaded cachePrefix now item e
      · obtain ⟨e, hloaded⟩ := hloaded
        rw [loads_loaded hloaded, remember]
        split
        · next hkey =>
            subst hkey
            constructor
            · intro hsome
              obtain rfl := Option.some.inj hsome
              exact ⟨item.2, by simp, hloaded⟩
            · rintro ⟨text, hmem, hother⟩
              obtain hmem | hmem := List.mem_append.mp hmem
              · exact absurd hmem (hfresh text)
              · rw [List.mem_singleton.mp hmem] at hother
                exact hloaded.parsed.symm.trans hother.parsed
        · next hkey =>
            rw [ih hitems]
            constructor
            · rintro ⟨text, hmem, hother⟩
              exact ⟨text, List.mem_append_left _ hmem, hother⟩
            · rintro ⟨text, hmem, hother⟩
              obtain hmem | hmem := List.mem_append.mp hmem
              · exact ⟨text, hmem, hother⟩
              · exact absurd (congrArg Prod.fst (List.mem_singleton.mp hmem)) hkey
      · rw [loads_other (fun e he => hloaded ⟨e, he⟩), ih hitems]
        constructor
        · rintro ⟨text, hmem, hother⟩
          exact ⟨text, List.mem_append_left _ hmem, hother⟩
        · rintro ⟨text, hmem, hother⟩
          obtain hmem | hmem := List.mem_append.mp hmem
          · exact ⟨text, hmem, hother⟩
          · rw [List.mem_singleton.mp hmem] at hother
            exact absurd ⟨entry, hother⟩ hloaded

/-- Items differ already in their keys. -/
theorem nodup_items (s : LocalStorage V) : s.items.Nodup := List.Nodup.of_map Prod.fst s.distinct

/-- The constructor's walk, told apart: the items its index skips stay, those it visits are
    loaded or dropped. -/
theorem loadFromStorage_eq (s : LocalStorage V) :
    loadFromStorage cachePrefix now s = (Walk.kept (drops cachePrefix now) s.items,
      (Walk.visited (drops cachePrefix now) s.items).foldl
        (fun memory item => loads cachePrefix now item memory) fun _ => none) :=
  Walk.walkUp_eq s.distinct _

/-- In the memory afterwards is exactly what the walk visited and loaded. -/
theorem memory_loaded (s : LocalStorage V) :
    (loadFromStorage cachePrefix now s).2 key = some entry ↔
      ∃ text, (key, text) ∈ Walk.visited (drops cachePrefix now) s.items ∧
        Loaded cachePrefix now (key, text) entry := by
  rw [loadFromStorage_eq]
  exact foldl_loads (s.distinct.sublist (List.Sublist.map _ (Walk.visited_sublist s.items)))

/-- The prefix is the one it was made with. -/
theorem cachePrefix_construct (cachePrefix : JsString) (memoryOnly : Bool) (content : LocalStorage V) (now : Nat) :
    (construct cachePrefix memoryOnly content now).cachePrefix = cachePrefix := by
  rw [construct]
  split
  · rfl
  · rfl

end Loading

end BrowserCache
