import StellarSave.PoolProofs
import StellarSave.TraceProofs

/-! # Challenge — login challenges and their nonces

    `verifySignature` fetches the challenge of a wallet, deletes it, looks for
    the marker of its nonce and, once the signature is checked, writes the
    marker: four steps at the server, between any two of which other calls run
    and time passes.  A nonce is accepted twice when a second call looks for the
    marker after the first has looked and before it has written, or after the
    marker has expired; along every other run it is accepted at most once. -/

namespace LoginChallenge

open Trace

def CHALLENGE_TTL_SECONDS : Nat := 300

def USED_NONCE_TTL_SECONDS : Nat := CHALLENGE_TTL_SECONDS + 60

/-- The value under `auth:challenge:<wallet>`. -/
structure Challenge where
  nonce : String
  message : String
  timestamp : Nat
  deriving DecidableEq, Repr

/-- A value with the time its key expires. -/
structure Keyed (α : Type) where
  value : α
  expireAt : Nat

structure Redis where
  challenge : String → Option (Keyed Challenge)
  usedNonce : String → Option (Keyed Bool)

/-- `get`: the value of a key that has not expired. -/
def get {α : Type} (key : Option (Keyed α)) (now : Nat) : Option α :=
  match key with
  | none => none
  | some k => if now < k.expireAt then some k.value else none

/-- `set` with a time to live. -/
def set {α : Type} (value : α) (ttlSeconds now : Nat) : Option (Keyed α) :=
  some { value, expireAt := now + ttlSeconds * 1000 }

def update {α : Type} (f : String → α) (key : String) (value : α) : String → α :=
  fun k => if k = key then value else f k

/-- The message a wallet is asked to sign. -/
def challengeMessage (walletAddress nonce : String) (timestamp : Nat) : String :=
  "Sign this message to authenticate with Stellar Save.\n\nWallet: " ++ walletAddress
    ++ "\nNonce: " ++ nonce ++ "\nTimestamp: " ++ toString timestamp

-- ── Calls in flight ───────────────────────────────────────────────────────────

/-- Where a call of `verifySignature` stands. -/
inductive Pc where
  | get
  | del (stored : Challenge)
  | check (stored : Challenge)
  | look (stored : Challenge)
  | mark (stored : Challenge)
  | returned (isValid : Bool)
  | thrown (error : String)
  deriving DecidableEq, Repr

structure Call where
  walletAddress : String
  signedMessage : String
  signature : String
  pc : Pc
  deriving DecidableEq, Repr

/-- The server, the calls, the clock in milliseconds, and the record kept of the
    nonces for which a call returned `true`. -/
structure State where
  redis : Redis
  calls : List Call
  now : Nat
  accepted : List String

def start : State :=
  { redis := { challenge := fun _ => none, usedNonce := fun _ => none }, calls := [], now := 0,
    accepted := [] }

inductive Event where
  | challenge (walletAddress nonce : String) (timestamp : Nat)
  | verify (walletAddress signedMessage signature : String)
  | step (k : Nat)
  | pass (ms : Nat)
  deriving DecidableEq, Repr

section
variable (verify : String → String → String → Bool)

/-- One step of a call: the server and where the call stands after it.  `verify`
    is the signature check of the wallet's key pair, `false` when it throws. -/
def Call.advance (c : Call) (redis : Redis) (now : Nat) : Redis × Pc :=
  match c.pc with
  | .get =>
      match get (redis.challenge c.walletAddress) now with
      | none => (redis, .thrown "Challenge not found or expired. Request a new challenge.")
      | some stored => (redis, .del stored)
  | .del stored =>
      ({ redis with challenge := update redis.challenge c.walletAddress none }, .check stored)
  | .check stored =>
      if stored.message ≠ c.signedMessage then (redis, .thrown "Challenge message mismatch.")
      else if CHALLENGE_TTL_SECONDS * 1000 < now - stored.timestamp then
        (redis, .thrown "Challenge has expired.")
      else (redis, .look stored)
  | .look stored =>
      match get (redis.usedNonce stored.nonce) now with
      | some _ => (redis, .thrown "Challenge nonce has already been used.")
      | none =>
          if verify c.walletAddress c.signedMessage c.signature then (redis, .mark stored)
          else (redis, .returned false)
  | .mark stored =>
      ({ redis with
          usedNonce := update redis.usedNonce stored.nonce (set true USED_NONCE_TTL_SECONDS now) },
        .returned true)
  | .returned isValid => (redis, .returned isValid)
  | .thrown error => (redis, .thrown error)

/-- The nonce a step accepts. -/
def accepting (c : Call) : List String :=
  match c.pc with
  | .mark stored => [stored.nonce]
  | _ => []

def step : Event → State → State
  | .challenge walletAddress nonce timestamp, s =>
      let value := { nonce, message := challengeMessage walletAddress nonce timestamp, timestamp }
      { s with redis := { s.redis with
          challenge := update s.redis.challenge walletAddress (set value CHALLENGE_TTL_SECONDS s.now) } }
  | .verify walletAddress signedMessage signature, s =>
      { s with calls := s.calls ++ [{ walletAddress, signedMessage, signature, pc := .get }] }
  | .step k, s =>
      match s.calls[k]? with
      | none => s
      | some c =>
          let (redis, pc) := c.advance verify s.redis s.now
          { s with redis, calls := s.calls.set k { c with pc }, accepted := s.accepted ++ accepting c }
  | .pass ms, s => { s with now := s.now + ms }

end

-- ── At most once ──────────────────────────────────────────────────────────────

/-- A call whose signature is good looks for the marker of a nonce while no other
    call is about to write it, and not after it has expired. -/
def Exclusive (verify : String → String → String → Bool) : Event → State → Prop
  | .step k, s => ∀ c stored, s.calls[k]? = some c → c.pc = .look stored →
      verify c.walletAddress c.signedMessage c.signature = true →
      (∀ d ∈ s.calls, ∀ other, d.pc = .mark other → other.nonce ≠ stored.nonce)
        ∧ ∀ marker, s.redis.usedNonce stored.nonce = some marker → s.now < marker.expireAt
  | _, _ => True

/-- A call about to write the marker of a nonce. -/
def marking (n : String) (c : Call) : Nat :=
  match c.pc with
  | .mark stored => if stored.nonce = n then 1 else 0
  | _ => 0

/-- The nonces accepted are those marked, and at most one call has accepted a
    nonce or is about to. -/
structure Once (n : String) (s : State) : Prop where
  count : s.accepted.count n + Pool.total (marking n) s.calls ≤ 1
  marked : 0 < s.accepted.count n ↔ (s.redis.usedNonce n).isSome

section
variable {verify : String → String → String → Bool}

/-- A step that accepts nothing leaves the markers alone. -/
theorem advance_usedNonce {c : Call} (h : ∀ stored, c.pc ≠ .mark stored) (redis : Redis) (now : Nat) :
    (c.advance verify redis now).1.usedNonce = redis.usedNonce := by
  rw [Call.advance]
  cases hpc : c.pc with
  | get => simp only; split <;> rfl
  | del stored => rfl
  | check stored =>
      simp only
      split
      · rfl
      · split <;> rfl
  | look stored =>
      simp only
      split
      · rfl
      · split <;> rfl
  | mark stored => exact absurd hpc (h stored)
  | returned isValid => rfl
  | thrown error => rfl

/-- A call gets to write a marker from looking for it alone. -/
theorem marking_advance {n : String} {c : Call} {redis : Redis} {now : Nat}
    (h : marking n { c with pc := (c.advance verify redis now).2 } ≠ 0) :
    ∃ stored, c.pc = .look stored ∧ stored.nonce = n ∧ get (redis.usedNonce n) now = none
      ∧ verify c.walletAddress c.signedMessage c.signature = true := by
  rw [Call.advance] at h
  -- only the look for a marker leads to writing it
  cases hpc : c.pc with
  | look stored =>
      simp only [hpc] at h
      cases hget : get (redis.usedNonce stored.nonce) now with
      | some b => simp [hget, marking] at h
      | none =>
          simp only [hget] at h
          split at h
          · next hverify =>
              by_cases hn : stored.nonce = n
              · exact ⟨stored, rfl, hn, hn ▸ hget, hverify⟩
              · simp [marking, hn] at h
          · simp [marking] at h
  | get =>
      simp only [hpc] at h
      split at h <;> simp [marking] at h
  | del stored => simp [hpc, marking] at h
  | check stored =>
      simp only [hpc] at h
      split at h
      · simp [marking] at h
      · split at h <;> simp [marking] at h
  | mark stored => simp [hpc, marking] at h
  | returned isValid => simp [hpc, marking] at h
  | thrown error => simp [hpc, marking] at h

theorem marking_le (n : String) (c : Call) : marking n c ≤ 1 := by
  rw [marking]
  split
  · split <;> omega
  · exact Nat.zero_le 1

/-- The nonces a step accepts are those of the markers it writes. -/
theorem count_accepting (n : String) (c : Call) : (accepting c).count n = marking n c := by
  rw [accepting, marking]
  split
  · rw [List.count_singleton]
    simp only [beq_iff_eq]
  · rfl

/-- **ONE STEP**: an exclusive step keeps a nonce accepted at most once. -/
theorem step_once {n : String} {e : Event} {s : State} (hex : Exclusive verify e s) (h : Once n s) :
    Once n (step verify e s) := by
  -- one await of one call, and no other call in the same window
  cases e with
  | challenge walletAddress nonce timestamp => exact ⟨h.count, h.marked⟩
  | verify walletAddress signedMessage signature =>
      refine ⟨?_, h.marked⟩
      have hnew : marking n ⟨walletAddress, signedMessage, signature, .get⟩ = 0 := rfl
      simp only [step, Pool.total_append, Pool.total_cons, Pool.total_nil, hnew]
      exact h.count
  | pass ms => exact ⟨h.count, h.marked⟩
  | step k =>
      simp only [step]
      cases hc : s.calls[k]? with
      | none => exact h
      | some c =>
          have hmem : c ∈ s.calls := List.mem_of_getElem? hc
          have htotal := Pool.total_set (marking n) hc
            { c with pc := (c.advance verify s.redis s.now).2 }
          have hle := Pool.le_total (marking n) hmem
          have hcount := h.count
          refine ⟨?_, ?_⟩
          · rw [List.count_append, count_accepting]
            by_cases hmarks : marking n { c with pc := (c.advance verify s.redis s.now).2 } = 0
            · simp only at htotal ⊢
              omega
            · -- the call has looked for the marker: nobody else may be about to write it
              obtain ⟨stored, hlook, rfl, hget, hverify⟩ := marking_advance hmarks
              obtain ⟨hothers, hlive⟩ := hex c stored hc hlook hverify
              have hnone : s.accepted.count stored.nonce = 0 := by
                by_contra hpos
                obtain ⟨marker, hmarker⟩ := Option.isSome_iff_exists.mp (h.marked.mp (by omega))
                simp only [get, hmarker, if_pos (hlive marker hmarker)] at hget
                exact absurd hget (by simp)
              have hzero : Pool.total (marking stored.nonce) s.calls = 0 := by
                refine Pool.total_eq_zero fun d hd => ?_
                rw [marking]
                split
                · next other hother => exact if_neg (hothers d hd other hother)
                · rfl
              have hone := marking_le stored.nonce
                { c with pc := (c.advance verify s.redis s.now).2 }
              simp only at htotal ⊢
              omega
          · rw [List.count_append, count_accepting]
            by_cases hm : ∃ stored, c.pc = .mark stored
            · obtain ⟨stored, hm⟩ := hm
              simp only [Call.advance, hm, update]
              split
              · next heq =>
                  subst heq
                  have hone : marking stored.nonce c = 1 := by
                    rw [marking, hm]
                    exact if_pos rfl
                  exact ⟨fun _ => rfl, fun _ => by omega⟩
              · next hne =>
                  have hzero : marking n c = 0 := by
                    rw [marking, hm]
                    exact if_neg (Ne.symm hne)
                  rw [hzero, Nat.add_zero]
                  exact h.marked
            · have hm' : ∀ stored, c.pc ≠ .mark stored := fun stored hst => hm ⟨stored, hst⟩
              have hzero : marking n c = 0 := by
                rw [marking]
                split
                · next stored hst => exact absurd hst (hm' stored)
                · rfl
              rw [advance_usedNonce hm', hzero, Nat.add_zero]
              exact h.marked

theorem start_once (n : String) : Once n start :=
  ⟨Nat.zero_le 1, by simp [start]⟩

/-- **ACCEPTED AT MOST ONCE**: along every run whose looks for a marker are
    exclusive, no nonce is accepted twice. -/
theorem nonce_accepted_once {es : List Event}
    (h : Along (step verify) (Exclusive verify) es start) (n : String) :
    (exec (step verify) es start).accepted.count n ≤ 1 := by
  have honce : Once n (exec (step verify) es start) :=
    exec_invariant (fun e s hex hs => step_once hex hs) (start_once n) h
  have hcount := honce.count
  omega

/-- A good call that finds no live marker is about to write it. -/
theorem step_look {k : Nat} {s : State} {c : Call} {stored : Challenge} (hc : s.calls[k]? = some c)
    (hlook : c.pc = .look stored)
    (hverify : verify c.walletAddress c.signedMessage c.signature = true)
    (hget : get (s.redis.usedNonce stored.nonce) s.now = none) :
    step verify (.step k) s = { s with calls := s.calls.set k { c with pc := .mark stored } } := by
  simp only [step, hc, Call.advance, accepting, hlook, hget, if_pos hverify, List.append_nil]

/-- A call about to write a marker accepts its nonce at its next step. -/
theorem step_mark (verify : String → String → String → Bool) {k : Nat} {s : State} {c : Call} {stored : Challenge} (hc : s.calls[k]? = some c)
    (hm : c.pc = .mark stored) :
    (step verify (.step k) s).accepted = s.accepted ++ [stored.nonce]
      ∧ ∀ j, j ≠ k → (step verify (.step k) s).calls[j]? = s.calls[j]? := by
  simp only [step, hc, accepting, hm, true_and]
  exact fun j hj => List.getElem?_set_ne hj.symm

/-- **THE CONDITION IS NEEDED**: after a run of exclusive looks, one that is not
    exclusive lets a nonce be accepted a second time. -/
theorem shared_look_accepts_twice {es : List Event} {k : Nat}
    (h : Along (step verify) (Exclusive verify) es start)
    (hshared : ¬ Exclusive verify (.step k) (exec (step verify) es start)) :
    ∃ n more, 2 ≤ (exec (step verify) (es ++ .step k :: more) start).accepted.count n := by
  obtain ⟨s, hs⟩ : ∃ s, s = exec (step verify) es start := ⟨_, rfl⟩
  have honce : ∀ n, Once n s := fun n =>
    hs ▸ exec_invariant (fun e s hex hs => step_once hex hs) (start_once n) h
  rw [← hs] at hshared
  simp only [Exclusive, not_forall] at hshared
  obtain ⟨c, stored, hc, hlook, hverify, hshared⟩ := hshared
  have hcount := (honce stored.nonce).count
  have hlt : k < s.calls.length := (List.getElem?_eq_some_iff.mp hc).1
  have hk : (s.calls.set k { c with pc := .mark stored })[k]? = some { c with pc := .mark stored } :=
    List.getElem?_set_self hlt
  by_cases hothers : ∀ d ∈ s.calls, ∀ other, d.pc = .mark other → other.nonce ≠ stored.nonce
  · -- the marker has expired: the nonce has been accepted once already
    -- within its life it would have been seen
    obtain ⟨marker, hmarker, hexpired⟩ : ∃ marker, s.redis.usedNonce stored.nonce = some marker
        ∧ ¬ s.now < marker.expireAt := by
      by_contra hnot
      exact hshared ⟨hothers, fun marker hm => by_contra fun hlt => hnot ⟨marker, hm, hlt⟩⟩
    have hget : get (s.redis.usedNonce stored.nonce) s.now = none := by
      simp only [get, hmarker, if_neg hexpired]
    have hpos : 0 < s.accepted.count stored.nonce := (honce stored.nonce).marked.mpr (by simp [hmarker])
    refine ⟨stored.nonce, [.step k], ?_⟩
    rw [exec_append, ← hs, exec_cons, exec_cons, exec_nil, step_look hc hlook hverify hget,
      (step_mark verify hk rfl).1, List.count_append, List.count_singleton_self]
    exact Nat.succ_le_succ hpos
  · -- two calls are about to write the marker
    simp only [not_forall, not_not] at hothers
    obtain ⟨d, hd, other, hmark, hsame⟩ := hothers
    obtain ⟨j, hj⟩ := List.mem_iff_getElem?.mp hd
    have hjk : j ≠ k := by
      rintro rfl
      obtain rfl : d = c := Option.some.inj (hj.symm.trans hc)
      exact absurd (hlook.symm.trans hmark) (by simp)
    have hone : marking stored.nonce d = 1 := by
      rw [marking, hmark]
      exact if_pos hsame
    have hle := Pool.le_total (marking stored.nonce) hd
    have hnone : s.redis.usedNonce stored.nonce = none := by
      have hzero : ¬ 0 < s.accepted.count stored.nonce := by omega
      exact Option.not_isSome_iff_eq_none.mp fun hsome => hzero ((honce stored.nonce).marked.mpr hsome)
    have hget : get (s.redis.usedNonce stored.nonce) s.now = none := by rw [hnone]; rfl
    have hj' : (s.calls.set k { c with pc := .mark stored })[j]? = some d :=
      (List.getElem?_set_ne hjk.symm).trans hj
    obtain ⟨hacc, hcalls⟩ := step_mark verify
      (s := { s with calls := s.calls.set k { c with pc := .mark stored } }) hk rfl
    refine ⟨stored.nonce, [.step k, .step j], ?_⟩
    rw [exec_append, ← hs, exec_cons, exec_cons, exec_cons, exec_nil,
      step_look hc hlook hverify hget,
      (step_mark verify ((hcalls j hjk).trans hj') hmark).1, hacc, hsame]
    simp

end

/-- A challenge answered once. -/
def answered : List Event :=
  [.challenge "G" "n" 0, .verify "G" (challengeMessage "G" "n" 0) "sig",
    .step 0, .step 0, .step 0, .step 0, .step 0]

/-- A call on its own, before any nonce is marked. -/
theorem exclusive_alone {k : Nat} {s : State} {c : Call} (hcalls : s.calls = [c])
    (hnone : s.redis.usedNonce = fun _ => none) :
    Exclusive (fun _ _ _ => true) (.step k) s := by
  intro c' stored hc hlook _
  have hc' : c' = c := List.mem_singleton.mp (hcalls ▸ List.mem_of_getElem? hc)
  subst hc'
  refine ⟨fun d hd other hmark => ?_, fun marker hmarker => ?_⟩
  · obtain rfl : d = c' := List.mem_singleton.mp (hcalls ▸ hd)
    exact absurd (hlook.symm.trans hmark) (by simp)
  · exact absurd (hnone ▸ hmarker) (by simp)

theorem answered_once :
    Along (step fun _ _ _ => true) (Exclusive fun _ _ _ => true) answered start
      ∧ (exec (step fun _ _ _ => true) answered start).accepted = ["n"]
      ∧ (exec (step fun _ _ _ => true) answered start).accepted.count "n" ≤ 1 := by
  have h : Along (step fun _ _ _ => true) (Exclusive fun _ _ _ => true) answered start :=
    ⟨trivial, trivial, exclusive_alone rfl rfl, exclusive_alone rfl rfl, exclusive_alone rfl rfl,
      exclusive_alone rfl rfl, exclusive_alone rfl rfl, trivial⟩
  exact ⟨h, by decide +kernel, nonce_accepted_once h "n"⟩

/-- **ACCEPTED TWICE**: two calls that both fetch the challenge before either
    deletes it, and both look for the marker before either writes it. -/
theorem nonce_accepted_twice :
    (exec (step fun _ _ _ => true)
      [.challenge "G" "n" 0, .verify "G" (challengeMessage "G" "n" 0) "sig",
        .verify "G" (challengeMessage "G" "n" 0) "sig", .step 0, .step 1, .step 0, .step 1,
        .step 0, .step 1, .step 0, .step 1, .step 0, .step 1] start).accepted.count "n" = 2 := by
  decide +kernel

end LoginChallenge
