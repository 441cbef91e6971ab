import Mathlib.Algebra.Order.Group.Int
import Mathlib.Data.List.Infix
import StellarSave.TraceProofs
import StellarSave.UnitsProofs

/-! # The secrets cache — a value for five minutes

    `SecretsManagerService` (`secrets_manager_service.ts`).  A value that was fetched is
    kept for five minutes from the moment its answer arrives, which is not the moment
    it was read; `updateSecret` and `rotateSecret` drop the entry when they are answered,
    and ask nothing of the fetches under way.  Others write the secret too. -/

namespace Secrets

open Trace Units

def CACHE_TTL_MS : Int := 5 * 60 * 1000

/-- What the service returns to its callers, or still waits for. -/
inductive Pc where
  | getting (name : JsString) (useCache : Bool)
  | arriving (name : JsString) (useCache : Bool) (value : JsString) (readAt : Int)
  | got (name value : JsString) (returnedAt : Int)
  | putting (name value : JsString)
  | rotating (name : JsString)
  | answered (name : JsString)
  | done
  | failed
  deriving DecidableEq, Repr

/-- The values of each secret with the times they were written at, the cache, and the calls. -/
structure State where
  versions : JsString → List (Int × JsString)
  cache : JsString → Option (JsString × Int)
  calls : List Pc
  now : Int

def start (versions : JsString → List (Int × JsString)) (now : Int) : State :=
  ⟨versions, fun _ => none, [], now⟩

/-- The entry `getSecret` serves without asking. -/
def cached (name : JsString) (s : State) : Option JsString :=
  match s.cache name with
  | some (value, expiry) => if s.now < expiry then some value else none
  | none => none

/-- `getSecret`, up to its first wait. -/
def getSecret (name : JsString) (useCache : Bool) (s : State) : State :=
  { s with
    calls := s.calls ++ [
      match useCache, cached name s with
      | true, some value => .got name value s.now
      | _, _ => .getting name useCache] }

def write (name value : JsString) (s : State) : State :=
  { s with versions := fun n => if n = name then s.versions n ++ [(s.now, value)] else s.versions n }

/-- `cache.delete`. -/
def forget (name : JsString) (s : State) : State :=
  { s with cache := fun n => if n = name then none else s.cache n }

def State.become (k : Nat) (pc : Pc) (s : State) : State := { s with calls := s.calls.set k pc }

/-- The service of the provider takes the command of a call. -/
def reach (k : Nat) (s : State) : State :=
  match s.calls[k]? with
  | some (.getting name useCache) =>
      match (s.versions name).getLast? with
      | some (_, value) =>
          if value = [] then s.become k .failed else s.become k (.arriving name useCache value s.now)
      | none => s.become k .failed
  | some (.putting name value) => (write name value s).become k (.answered name)
  | some (.rotating name) => s.become k (.answered name)
  | _ => s

/-- The answer arrives. -/
def resume (k : Nat) (s : State) : State :=
  match s.calls[k]? with
  | some (.arriving name useCache value _) =>
      let s := s.become k (.got name value s.now)
      if useCache then
        { s with cache := fun n => if n = name then some (value, s.now + CACHE_TTL_MS) else s.cache n }
      else s
  | some (.answered name) => forget name (s.become k .done)
  | _ => s

/-- A call that the provider refuses, or that gets no answer. -/
def fail (k : Nat) (s : State) : State :=
  match s.calls[k]? with
  | some (.getting ..) | some (.arriving ..) | some (.putting ..) | some (.rotating _) | some (.answered _) =>
      s.become k .failed
  | _ => s

/-- `clearCache`; an empty name is no name. -/
def clearCache (name : Option JsString) (s : State) : State :=
  if name.getD [] = [] then { s with cache := fun _ => none } else forget (name.getD []) s

inductive Event where
  | getSecret (name : JsString) (useCache : Bool)
  | updateSecret (name value : JsString)
  | rotateSecret (name : JsString)
  | clearCache (name : Option JsString)
  | reach (k : Nat)
  | resume (k : Nat)
  | fail (k : Nat)
  | write (name value : JsString)
  | wait (ms : Nat)
  deriving DecidableEq, Repr

def step : Event → State → State
  | .getSecret name useCache, s => getSecret name useCache s
  | .updateSecret name value, s => { s with calls := s.calls ++ [.putting name value] }
  | .rotateSecret name, s => { s with calls := s.calls ++ [.rotating name] }
  | .clearCache name, s => clearCache name s
  | .reach k, s => reach k s
  | .resume k, s => resume k s
  | .fail k, s => fail k s
  | .write name value, s => write name value s
  | .wait ms, s => { s with now := s.now + ms }

/-! ## What a step changes

    Every step leaves the calls as they are, adds one, or moves one on.  What has been
    written is never rewritten. -/

/-- What the call `j` can become when `e` happens in `s`. -/
inductive Moves (e : Event) (s : State) (j : Nat) : Pc → Prop where
  | getting (name useCache) : Moves e s j (.getting name useCache)
  | hit {name value expiry} (hcache : s.cache name = some (value, expiry)) (hfresh : s.now < expiry) :
      Moves e s j (.got name value s.now)
  | putting (name value) : Moves e s j (.putting name value)
  | rotating (name) : Moves e s j (.rotating name)
  | read {name useCache writtenAt value} (hlast : (s.versions name).getLast? = some (writtenAt, value)) :
      Moves e s j (.arriving name useCache value s.now)
  | arrive {name useCache value readAt} (he : e = .resume j)
      (hj : s.calls[j]? = some (.arriving name useCache value readAt)) : Moves e s j (.got name value s.now)
  | answered (name) : Moves e s j (.answered name)
  | done : Moves e s j .done
  | failed : Moves e s j .failed

section Steps

variable {s : State} {name value : JsString} {k j : Nat} {pc pc' : Pc} {e : Event} {expiry : Int}

/-- One call moves, the others stay where they were. -/
theorem mem_become (h : (s.become k pc).calls[j]? = some pc') :
    s.calls[j]? = some pc' ∨ j = k ∧ pc' = pc := by
  replace h : (s.calls.set k pc)[j]? = some pc' := h
  by_cases hjk : k = j
  · obtain rfl := hjk
    right
    refine ⟨rfl, ?_⟩
    obtain ⟨hlt, hget⟩ := List.getElem?_eq_some_iff.mp h
    rw [← hget, List.getElem_set_self]
  · rw [List.getElem?_set_ne hjk] at h
    exact Or.inl h

/-- So every call stays, or moves as the event says. -/
theorem become_moves (hpc : Moves e s k pc) (h : (s.become k pc).calls[j]? = some pc') :
    s.calls[j]? = some pc' ∨ Moves e s j pc' := by
  rcases mem_become h with hold | ⟨rfl, rfl⟩
  · exact Or.inl hold
  · exact Or.inr hpc

/-- A new call begins as the event says. -/
theorem added_moves (hpc : ∀ j, Moves e s j pc) (h : (s.calls ++ [pc])[j]? = some pc') :
    s.calls[j]? = some pc' ∨ Moves e s j pc' := by
  rcases Nat.lt_or_ge j s.calls.length with hlt | hge
  · rw [List.getElem?_append_left hlt] at h
    exact Or.inl h
  · rw [List.getElem?_append_right hge] at h
    obtain rfl := List.mem_singleton.mp (List.mem_of_getElem? h)
    exact Or.inr (hpc j)

/-- What is read from the cache has not run out. -/
theorem cached_some (h : cached name s = some value) :
    ∃ expiry, s.cache name = some (value, expiry) ∧ s.now < expiry := by
  rw [cached] at h
  cases hcache : s.cache name with
  | none =>
      rw [hcache] at h
      exact nomatch h
  | some entry =>
      obtain ⟨v, expiry⟩ := entry
      rw [hcache] at h
      dsimp only at h
      by_cases hfresh : s.now < expiry
      · rw [if_pos hfresh] at h
        obtain rfl := Option.some.inj h
        exact ⟨expiry, rfl, hfresh⟩
      · rw [if_neg hfresh] at h
        exact nomatch h

/-- After an event a call is where it was, or has moved by that event. -/
theorem step_calls (e : Event) (h : (step e s).calls[j]? = some pc) :
    s.calls[j]? = some pc ∨ Moves e s j pc := by
  cases e with
  | getSecret name useCache =>
      refine added_moves ?_ h
      intro j
      cases useCache with
      | false => exact Moves.getting name false
      | true =>
          cases hcached : cached name s with
          | none => exact Moves.getting name true
          | some value =>
              obtain ⟨expiry, hcache, hfresh⟩ := cached_some hcached
              exact Moves.hit hcache hfresh
  | updateSecret name value => exact added_moves (fun _ => Moves.putting name value) h
  | rotateSecret name => exact added_moves (fun _ => Moves.rotating name) h
  | clearCache name =>
      rw [step, clearCache] at h
      split at h <;> exact Or.inl h
  | reach k =>
      rw [step, reach] at h
      split at h
      · split at h
        · next hlast =>
            split at h
            · exact become_moves Moves.failed h
            · exact become_moves (Moves.read hlast) h
        · exact become_moves Moves.failed h
      · next name value _ => exact become_moves (s := s) (Moves.answered name) h
      · next name _ => exact become_moves (Moves.answered name) h
      · exact Or.inl h
  -- the answer goes to the cache only if the call asked for it
  | resume k =>
      rw [step, resume] at h
      split at h
      · next name useCache value readAt hk =>
          have hmoves : Moves (.resume k) s k (.got name value s.now) := Moves.arrive rfl hk
          cases useCache with
          | true => exact become_moves hmoves h
          | false => exact become_moves hmoves h
      · exact become_moves Moves.done h
      · exact Or.inl h
  | fail k =>
      rw [step, fail] at h
      split at h <;> first | exact become_moves Moves.failed h | exact Or.inl h
  | write name value => exact Or.inl h
  | wait ms => exact Or.inl h

/-- An entry is old, or an answer has just arrived. -/
theorem step_cache (e : Event) (h : (step e s).cache name = some (value, expiry)) :
    s.cache name = some (value, expiry) ∨
      ∃ k readAt, e = .resume k ∧ s.calls[k]? = some (.arriving name true value readAt) ∧
        expiry = s.now + CACHE_TTL_MS := by
  -- to forget a name adds nothing to the cache
  have hforget : ∀ n (s' : State), (forget n s').cache name = some (value, expiry) →
      s'.cache name = some (value, expiry) := by
    intro n s' hn
    replace hn : (if name = n then none else s'.cache name) = some (value, expiry) := hn
    split at hn
    · exact nomatch hn
    · exact hn
  cases e with
  | clearCache n =>
      rw [step, clearCache] at h
      split at h
      · exact nomatch h
      · exact Or.inl (hforget _ _ h)
  | reach k =>
      rw [step, reach] at h
      split at h
      · split at h
        · split at h <;> exact Or.inl h
        · exact Or.inl h
      · exact Or.inl h
      · exact Or.inl h
      · exact Or.inl h
  -- only a read that comes back is cached
  | resume k =>
      rw [step, resume] at h
      split at h
      · next n useCache v readAt hk =>
          cases useCache with
          | false => exact Or.inl h
          | true =>
              replace h : (if name = n then some (v, s.now + CACHE_TTL_MS) else s.cache name) =
                some (value, expiry) := h
              by_cases hn : name = n
              · rw [if_pos hn] at h
                obtain ⟨rfl, rfl⟩ := Prod.mk.inj (Option.some.inj h)
                exact Or.inr ⟨k, readAt, rfl, hn ▸ hk, rfl⟩
              · rw [if_neg hn] at h
                exact Or.inl h
      · exact Or.inl (hforget _ _ h)
      · exact Or.inl h
  | fail k =>
      rw [step, fail] at h
      split at h <;> exact Or.inl h
  | getSecret name useCache => exact Or.inl h
  | updateSecret name value => exact Or.inl h
  | rotateSecret name => exact Or.inl h
  | write name value => exact Or.inl h
  | wait ms => exact Or.inl h

/-- At most one value is written, at the end and now. -/
theorem step_versions (e : Event) (name : JsString) : (step e s).versions name = s.versions name ∨
    ∃ value, (step e s).versions name = s.versions name ++ [(s.now, value)] := by
  -- a write goes to one name
  have hwrite : ∀ n v, (write n v s).versions name = s.versions name ∨
      ∃ value, (write n v s).versions name = s.versions name ++ [(s.now, value)] := by
    intro n v
    by_cases hn : name = n
    · exact Or.inr ⟨v, if_pos hn⟩
    · exact Or.inl (if_neg hn)
  -- versions are written by a put that reaches the store, and from outside
  cases e with
  | clearCache n =>
      rw [step, clearCache]
      split <;> exact Or.inl rfl
  | reach k =>
      rw [step, reach]
      split
      · split
        · split <;> exact Or.inl rfl
        · exact Or.inl rfl
      · exact hwrite _ _
      · exact Or.inl rfl
      · exact Or.inl rfl
  | resume k =>
      rw [step, resume]
      split
      · dsimp only
        split <;> exact Or.inl rfl
      · exact Or.inl rfl
      · exact Or.inl rfl
  | fail k =>
      rw [step, fail]
      split <;> exact Or.inl rfl
  | write n v => exact hwrite n v
  | getSecret name useCache => exact Or.inl rfl
  | updateSecret name value => exact Or.inl rfl
  | rotateSecret name => exact Or.inl rfl
  | wait ms => exact Or.inl rfl

/-- Time does not go back. -/
theorem step_now (e : Event) : s.now ≤ (step e s).now := by
  cases e with
  | wait ms =>
      show s.now ≤ s.now + ms
      omega
  | clearCache n =>
      rw [step, clearCache]
      split <;> exact Int.le_refl _
  | reach k =>
      rw [step, reach]
      split
      · split
        · split <;> exact Int.le_refl _
        · exact Int.le_refl _
      all_goals exact Int.le_refl _
  | resume k =>
      rw [step, resume]
      split
      · dsimp only
        split <;> exact Int.le_refl _
      all_goals exact Int.le_refl _
  | fail k =>
      rw [step, fail]
      split <;> exact Int.le_refl _
  | _ => exact Int.le_refl _

end Steps

/-! ## How old a value can be -/

/-- `v` was the current value at the time `r`. -/
def CurrentAt (versions : List (Int × JsString)) (r : Int) (v : JsString) : Prop :=
  ∃ i writtenAt, versions[i]? = some (writtenAt, v) ∧ writtenAt ≤ r ∧
    ∀ replacedAt w, versions[i + 1]? = some (replacedAt, w) → r ≤ replacedAt

/-- `v` was current at some time from `a` to `b`. -/
def Within (versions : List (Int × JsString)) (a b : Int) (v : JsString) : Prop :=
  ∃ r, a ≤ r ∧ r ≤ b ∧ CurrentAt versions r v

/-- An answer takes no longer than `latency`. -/
def InTime (latency : Int) : Event → State → Prop
  | .resume k, s => ∀ name useCache value readAt,
      s.calls[k]? = some (.arriving name useCache value readAt) → s.now ≤ readAt + latency
  | _, _ => True

/-- What every run of answers in time keeps. -/
structure Fresh (latency : Int) (s : State) : Prop where
  written : ∀ name, ∀ x ∈ s.versions name, x.1 ≤ s.now
  cache : ∀ name value expiry, s.cache name = some (value, expiry) →
    Within (s.versions name) (expiry - CACHE_TTL_MS - latency) s.now value
  arriving : ∀ (k : Nat) name useCache value readAt,
    s.calls[k]? = some (.arriving name useCache value readAt) →
      readAt ≤ s.now ∧ CurrentAt (s.versions name) readAt value
  got : ∀ (k : Nat) name value returnedAt, s.calls[k]? = some (.got name value returnedAt) →
    returnedAt ≤ s.now ∧
      Within (s.versions name) (returnedAt - CACHE_TTL_MS - latency) returnedAt value

section Age

variable {s : State} {name v : JsString} {versions : List (Int × JsString)} {r a b latency : Int} {e : Event}

/-- A version written later was not current before. -/
theorem CurrentAt.append (h : CurrentAt versions r v) {t : Int} (ht : r ≤ t) (w : JsString) :
    CurrentAt (versions ++ [(t, w)]) r v := by
  obtain ⟨i, writtenAt, hi, hle, hnext⟩ := h
  have hlt := (List.getElem?_eq_some_iff.mp hi).1
  refine ⟨i, writtenAt, by rw [List.getElem?_append_left hlt]; exact hi, hle, ?_⟩
  intro replacedAt w' hw'
  rcases Nat.lt_or_ge (i + 1) versions.length with hin | hout
  · rw [List.getElem?_append_left hin] at hw'
    exact hnext replacedAt w' hw'
  · -- it was the last, and is replaced now
    rw [List.getElem?_append_right hout] at hw'
    have heq := List.mem_singleton.mp (List.mem_of_getElem? hw')
    obtain ⟨rfl, rfl⟩ := Prod.mk.inj heq
    exact ht

/-- The last version is current from the time it was written. -/
theorem current_last {writtenAt : Int} (h : versions.getLast? = some (writtenAt, v)) (hr : writtenAt ≤ r) :
    CurrentAt versions r v := by
  rw [List.getLast?_eq_getElem?] at h
  refine ⟨versions.length - 1, writtenAt, h, hr, ?_⟩
  intro replacedAt w hw
  have hlt := (List.getElem?_eq_some_iff.mp hw).1
  omega

/-- What was current at a time in the past stays so. -/
theorem CurrentAt.step (h : CurrentAt (s.versions name) r v) (hr : r ≤ s.now) (e : Event) :
    CurrentAt ((step e s).versions name) r v := by
  rcases step_versions e name (s := s) with hsame | ⟨w, hwrite⟩
  · rw [hsame]
    exact h
  · rw [hwrite]
    exact h.append hr w

/-- So does what was current at some time in a window. -/
theorem Within.step (h : Within (s.versions name) a b v) (hb : b ≤ s.now) (e : Event) :
    Within ((step e s).versions name) a b v := by
  obtain ⟨r, ha, hr, hcurrent⟩ := h
  exact ⟨r, ha, hr, hcurrent.step (hr.trans hb) e⟩

/-- A wider window has it as well. -/
theorem Within.until {c : Int} (h : Within versions a b v) (hbc : b ≤ c) : Within versions a c v := by
  obtain ⟨r, ha, hr, hcurrent⟩ := h
  exact ⟨r, ha, hr.trans hbc, hcurrent⟩

/-- One event keeps everything fresh, if answers are in time. -/
theorem step_fresh (he : InTime latency e s) (h : Fresh latency s) :
    Fresh latency (step e s) := by
  have hnow := step_now e (s := s)
  refine ⟨?_, ?_, ?_, ?_⟩
  -- what was written before now was written before later
  · intro name x hx
    rcases step_versions e name (s := s) with hsame | ⟨w, hwrite⟩
    · rw [hsame] at hx
      exact (h.written name x hx).trans hnow
    · rw [hwrite] at hx
      rcases List.mem_append.mp hx with hold | hnew
      · exact (h.written name x hold).trans hnow
      · rw [List.mem_singleton.mp hnew]
        exact hnow
  -- the cache holds what was current when it was read
  · intro name value expiry hcache
    rcases step_cache e hcache with hold | ⟨k, readAt, rfl, hk, rfl⟩
    · exact ((h.cache name value expiry hold).step (Int.le_refl _) e).until hnow
    · obtain ⟨hread, hcurrent⟩ := h.arriving k name true value readAt hk
      have hin := he name true value readAt hk
      exact ⟨readAt, by omega, hread.trans hnow, hcurrent.step hread _⟩
  -- a read on its way back was current when it was read, and not long ago
  · intro k name useCache value readAt hk
    rcases step_calls e hk with hold | hmoves
    · obtain ⟨hread, hcurrent⟩ := h.arriving k name useCache value readAt hold
      exact ⟨hread.trans hnow, hcurrent.step hread e⟩
    · cases hmoves with
      | read hlast =>
          have hwritten := h.written name _ (List.mem_of_getLast? hlast)
          exact ⟨hnow, (current_last hlast hwritten).step (Int.le_refl _) e⟩
  -- what was answered was current within the window
  · intro k name value returnedAt hk
    rcases step_calls e hk with hold | hmoves
    · obtain ⟨hreturned, hwithin⟩ := h.got k name value returnedAt hold
      exact ⟨hreturned.trans hnow, hwithin.step hreturned e⟩
    · cases hmoves with
      | hit hcache hfresh =>
          obtain ⟨r, ha, hr, hcurrent⟩ := h.cache name value _ hcache
          exact ⟨hnow, r, by omega, hr, hcurrent.step hr e⟩
      | arrive he' hj =>
          subst he'
          obtain ⟨hread, hcurrent⟩ := h.arriving k name _ value _ hj
          have hin := he name _ value _ hj
          exact ⟨hnow, _, by rw [CACHE_TTL_MS]; omega, hread, hcurrent.step hread _⟩

end Age

/-- **NO OLDER THAN FIVE MINUTES**: where no answer takes longer than `latency`, what
    `getSecret` returns was the value of the secret at some time in the five minutes and
    `latency` before, whoever writes it and however the calls overlap. -/
theorem at_most_stale (latency : Int) (versions : JsString → List (Int × JsString)) (now : Int)
    (hwritten : ∀ name, ∀ x ∈ versions name, x.1 ≤ now) (es : List Event)
    (hrun : Along step (InTime latency) es (start versions now)) (k : Nat) (name value : JsString)
    (t : Int) (hk : (exec step es (start versions now)).calls[k]? = some (.got name value t)) :
    Within ((exec step es (start versions now)).versions name) (t - CACHE_TTL_MS - latency) t value := by
  have hstart : Fresh latency (start versions now) := by
    refine ⟨hwritten, ?_, ?_, ?_⟩
    · exact fun _ _ _ h => nomatch h
    · exact fun _ _ _ _ _ h => nomatch h
    · exact fun _ _ _ _ h => nomatch h
  have hend : Fresh latency (exec step es (start versions now)) :=
    exec_invariant (I := Fresh latency) (fun e _ he h => step_fresh he h) hstart hrun
  exact (hend.got k name value t hk).2

def secret : JsString := lit "stellar-save/db-password"

/-- One secret, with the value `a`. -/
def single (name : JsString) : List (Int × JsString) := if name = secret then [(0, lit "a")] else []

/-- A fetch that reads `a` before another process writes `b`, and a hit. -/
def overtaken : List Event :=
  [.getSecret secret true, .reach 0, .write secret (lit "b"), .wait 3, .resume 0, .wait 1000,
    .getSecret secret true]

/-- A read that a rotation overtakes: the old value is at most as old as cache and latency
    allow. -/
theorem at_most_stale_instance :
    (exec step overtaken (start single 0)).calls[1]? = some (.got secret (lit "a") 1003) ∧
      Within ((exec step overtaken (start single 0)).versions secret) (1003 - CACHE_TTL_MS - 3) 1003
        (lit "a") := by
  have hit : (exec step overtaken (start single 0)).calls[1]? = some (.got secret (lit "a") 1003) := by
    decide
  refine ⟨hit, at_most_stale 3 single 0 ?_ overtaken ?_ 1 secret (lit "a") 1003 hit⟩
  · intro name x hx
    rw [single] at hx
    split at hx
    · rw [List.mem_singleton.mp hx]
    · exact absurd hx List.not_mem_nil
  · refine ⟨trivial, trivial, trivial, trivial, ?_, trivial, trivial, trivial⟩
    intro name useCache value readAt hk
    have hfirst : (exec step [.getSecret secret true, .reach 0, .write secret (lit "b"), .wait 3]
        (start single 0)).calls[0]? = some (.arriving secret true (lit "a") 0) := by decide
    obtain ⟨-, -, -, rfl⟩ := Pc.arriving.inj (Option.some.inj (hfirst.symm.trans hk))
    decide

/-! ## Reading what was written

    Where no fetch with the old value is under way when the provider takes an update,
    nothing brings the old value back. -/

/-- `v` is one of the values from the `n`th on. -/
def Newer (n : Nat) (versions : List (Int × JsString)) (v : JsString) : Prop :=
  ∃ x ∈ versions.drop n, x.2 = v

/-- Since the value number `n` is there, the answers for the cache carry no older one. -/
structure Reading (n : Nat) (name : JsString) (s : State) : Prop where
  written : n < (s.versions name).length
  arriving : ∀ (k : Nat) value readAt, s.calls[k]? = some (.arriving name true value readAt) →
    Newer n (s.versions name) value

/-- From the call `m` on, no answer and no entry carries an older one. -/
structure Seen (n m : Nat) (name : JsString) (s : State) : Prop extends Reading n name s where
  cache : ∀ value expiry, s.cache name = some (value, expiry) → Newer n (s.versions name) value
  later : ∀ (k : Nat) useCache value readAt, m ≤ k →
    s.calls[k]? = some (.arriving name useCache value readAt) → Newer n (s.versions name) value
  got : ∀ (k : Nat) value returnedAt, m ≤ k → s.calls[k]? = some (.got name value returnedAt) →
    Newer n (s.versions name) value

section Seen

variable {s : State} {name v : JsString} {n m : Nat} {e : Event}

/-- A value newer than a write stays newer. -/
theorem Newer.step (h : Newer n (s.versions name) v) (e : Event) : Newer n ((step e s).versions name) v := by
  obtain ⟨x, hx, hv⟩ := h
  refine ⟨x, ?_, hv⟩
  rcases step_versions e name (s := s) with hsame | ⟨w, hwrite⟩
  · rw [hsame]
    exact hx
  · rw [hwrite, List.drop_append]
    exact List.mem_append_left _ hx

/-- The last value is among the newer ones. -/
theorem newer_last {versions : List (Int × JsString)} {writtenAt : Int} (hn : n < versions.length)
    (h : versions.getLast? = some (writtenAt, v)) : Newer n versions v := by
  refine ⟨(writtenAt, v), ?_, rfl⟩
  refine List.mem_of_getLast? ?_
  rw [List.getLast?_drop, if_neg (Nat.not_le_of_lt hn)]
  exact h

/-- A read that began after the write goes on so. -/
theorem step_reading (e : Event) (h : Reading n name s) : Reading n name (step e s) := by
  refine ⟨?_, ?_⟩
  · rcases step_versions e name (s := s) with hsame | ⟨w, hwrite⟩
    · rw [hsame]
      exact h.written
    · rw [hwrite, List.length_append]
      exact Nat.lt_add_right _ h.written
  · intro k value readAt hk
    rcases step_calls e hk with hold | hmoves
    · exact (h.arriving k value readAt hold).step e
    · cases hmoves with
      | read hlast => exact (newer_last h.written hlast).step e

/-- What has been seen of the write stays seen. -/
theorem step_seen (e : Event) (h : Seen n m name s) : Seen n m name (step e s) := by
  refine ⟨step_reading e h.toReading, ?_, ?_, ?_⟩
  · intro value expiry hcache
    rcases step_cache e hcache with hold | ⟨k, readAt, rfl, hk, -⟩
    · exact (h.cache value expiry hold).step e
    · exact (h.arriving k value readAt hk).step _
  · intro k useCache value readAt hm hk
    rcases step_calls e hk with hold | hmoves
    · exact (h.later k useCache value readAt hm hold).step e
    · cases hmoves with
      | read hlast => exact (newer_last h.written hlast).step e
  · intro k value returnedAt hm hk
    rcases step_calls e hk with hold | hmoves
    · exact (h.got k value returnedAt hm hold).step e
    · cases hmoves with
      | hit hcache _ => exact (h.cache value _ hcache).step e
      | arrive he hk' => exact (h.later k _ value _ hm hk').step e

end Seen

/-- **READ YOUR WRITES**: where no fetch of the secret for the cache is on its way back when
    the provider takes an `updateSecret`, every `getSecret` that is called after that
    update has returned gets its value or a later one. -/
theorem read_your_writes (s : State) (k : Nat) (name value : JsString)
    (hput : s.calls[k]? = some (.putting name value))
    (hquiet : ∀ (j : Nat) v r, s.calls[j]? ≠ some (.arriving name true v r)) (es es' : List Event)
    (hanswer : (exec step es (step (.reach k) s)).calls[k]? = some (.answered name)) (j : Nat)
    (v : JsString) (t : Int)
    (hlater : (step (.resume k) (exec step es (step (.reach k) s))).calls.length ≤ j)
    (hj : (exec step es' (step (.resume k) (exec step es (step (.reach k) s)))).calls[j]? =
      some (.got name v t)) :
    Newer (s.versions name).length
      ((exec step es' (step (.resume k) (exec step es (step (.reach k) s)))).versions name) v := by
  have htaken : step (.reach k) s = (write name value s).become k (.answered name) := by
    rw [step, reach, hput]
  have hversions : (step (.reach k) s).versions name = s.versions name ++ [(s.now, value)] := by
    rw [htaken]
    exact if_pos rfl
  have hstart : Reading (s.versions name).length name (step (.reach k) s) := by
    refine ⟨?_, ?_⟩
    · rw [hversions, List.length_append, List.length_singleton]
      exact Nat.lt_succ_self _
    · intro j v r hv
      rw [htaken] at hv
      rcases mem_become hv with hold | ⟨-, hpc⟩
      · exact absurd hold (hquiet j v r)
      · exact nomatch hpc
  have hreading : Reading (s.versions name).length name (exec step es (step (.reach k) s)) :=
    exec_invariant_always (I := Reading (s.versions name).length name) (fun e _ h => step_reading e h)
      hstart es
  generalize exec step es (step (.reach k) s) = s₁ at hanswer hlater hj hreading ⊢
  have hback : step (.resume k) s₁ = forget name (s₁.become k .done) := by
    rw [step, resume, hanswer]
  -- the entry is dropped, and no later call is there yet
  have hseen : Seen (s.versions name).length (step (.resume k) s₁).calls.length name
      (step (.resume k) s₁) := by
    refine ⟨step_reading _ hreading, ?_, ?_, ?_⟩
    · intro value expiry hcache
      rw [hback] at hcache
      replace hcache : (if name = name then none else s₁.cache name) = some (value, expiry) := hcache
      rw [if_pos rfl] at hcache
      exact nomatch hcache
    · intro k' useCache value readAt hm hk'
      exact absurd (List.getElem?_eq_some_iff.mp hk').1 (Nat.not_lt_of_le hm)
    · intro k' value returnedAt hm hk'
      exact absurd (List.getElem?_eq_some_iff.mp hk').1 (Nat.not_lt_of_le hm)
  have hend := exec_invariant_always
    (I := Seen (s.versions name).length (step (.resume k) s₁).calls.length name)
    (fun e _ h => step_seen e h) hseen es'
  exact hend.got j v t hlater hj

/-- The state when an update has been called, beside a fetch that has not been read. -/
def updating : State :=
  exec step [.getSecret secret true, .updateSecret secret (lit "b")] (start single 0)

/-- An update with a read in the middle of it, and the read that comes after both. -/
theorem read_your_writes_instance :
    (exec step [.getSecret secret true] (step (.resume 1)
        (exec step [.reach 0, .resume 0] (step (.reach 1) updating)))).calls.length = 3 ∧
      ∀ v t, (exec step [.reach 2, .resume 2] (exec step [.getSecret secret true] (step (.resume 1)
        (exec step [.reach 0, .resume 0] (step (.reach 1) updating))))).calls[2]? =
          some (.got secret v t) → Newer 1 ((exec step [.reach 2, .resume 2]
            (exec step [.getSecret secret true] (step (.resume 1)
              (exec step [.reach 0, .resume 0] (step (.reach 1) updating))))).versions secret) v := by
  refine ⟨by decide, fun v t hv => ?_⟩
  refine read_your_writes updating 1 secret (lit "b") (by decide) ?_ [.reach 0, .resume 0]
    [.getSecret secret true, .reach 2, .resume 2] (by decide) 2 v t (by decide) hv
  intro j v r hj
  have hcalls : updating.calls = [.getting secret true, .putting secret (lit "b")] := by decide
  rw [hcalls] at hj
  match j with
  | 0 => exact nomatch (Option.some.inj hj)
  | 1 => exact nomatch (Option.some.inj hj)
  | j + 2 => exact nomatch hj

end Secrets
