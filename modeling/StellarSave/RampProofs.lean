import StellarSave.UnitsProofs
import StellarSave.TraceProofs
import StellarSave.WindowProofs

/-! # Ramp protection — an alarm that counts what was let through

    `rampIpRateLimiter` records every request of an address under a key of fifteen
    minutes and refuses what is beyond five; the alarm looks at a key of one hour,
    which is fed by the requests that were let through alone.  Of these the sixth
    is a quarter of an hour behind the first, so an hour holds twenty, and the
    alarm waits for more. -/

namespace FiatRamp

open Units Window Trace

/-- The timestamps stored for each key. -/
abbrev Buckets := JsString → Option (List Int)

/-- `InMemoryVelocityStore.record`: the hits in the window, this one included. -/
def record (key : JsString) (windowMs nowMs : Int) (buckets : Buckets) : Nat × Buckets :=
  let timestamps := recent (nowMs - windowMs) ((buckets key).getD []) ++ [nowMs]
  (timestamps.length, Function.update buckets key (some timestamps))

/-- `InMemoryVelocityStore.count`: the hits in the window, with nothing recorded. -/
def count (key : JsString) (windowMs nowMs : Int) (buckets : Buckets) : Nat :=
  match buckets key with
  | none => 0
  | some timestamps => (recent (nowMs - windowMs) timestamps).length

def window15Min : Int := 15 * 60 * 1000
def window1Hour : Int := 60 * 60 * 1000
def ipMaxPer15Min : Nat := 5
def ipAnomalyThresholdPerHour : Nat := 20

/-- What the middleware reads of a request, and when. -/
structure Request where
  forwardedFor : Option JsString
  ip : Option JsString
  remoteAddress : Option JsString
  nowMs : Int

/-- `extractIp`. -/
def extractIp (req : Request) : JsString :=
  let direct := (req.ip.or req.remoteAddress).getD (lit "unknown")
  match req.forwardedFor with
  | none => direct
  | some forwarded =>
      if trim forwarded = [] then direct else trim (forwarded.takeWhile fun u => u ≠ unit ',')

def ipKey (ip : JsString) : JsString := lit "ramp:ip:" ++ ip
def hourKey (ip : JsString) : JsString := lit "ramp:ip:hour:" ++ ip

/-- What a request brought about: the hits of the hour if they raised the alarm, the hits
    of the quarter if they were too many, and whether the request went on. -/
structure Outcome where
  highIpVolume : Option Nat
  ip15Min : Option Nat
  next : Bool

/-- `rampIpRateLimiter`. -/
def rampIpRateLimiter (req : Request) (buckets : Buckets) : Outcome × Buckets :=
  let ip := extractIp req
  let (hits, buckets) := record (ipKey ip) window15Min req.nowMs buckets
  let hourCount := count (hourKey ip) window1Hour req.nowMs buckets
  let highIpVolume := if ipAnomalyThresholdPerHour < hourCount then some hourCount else none
  if ipMaxPer15Min < hits then (⟨highIpVolume, some hits, false⟩, buckets)
  else
    (⟨highIpVolume, none, true⟩, (record (hourKey ip) window1Hour req.nowMs buckets).2)

/-- The store after a request. -/
def step (req : Request) (buckets : Buckets) : Buckets := (rampIpRateLimiter req buckets).2

def start : Buckets := fun _ => none

/-- The hits of the quarter before a request, and those of the hour that went on. -/
def quarter (req : Request) (buckets : Buckets) : List Int :=
  recent (req.nowMs - window15Min) ((buckets (ipKey (extractIp req))).getD [])

def hour (req : Request) (buckets : Buckets) : List Int :=
  recent (req.nowMs - window1Hour) ((buckets (hourKey (extractIp req))).getD [])

/-- What one address has in its two buckets: whatever went on is a hit of the other, and
    the sixth that went on is a quarter of an hour behind the first. -/
structure Fed (ip : JsString) (now : Int) (buckets : Buckets) : Prop where
  sorted : ((buckets (hourKey ip)).getD []).Pairwise (· ≤ ·)
  past : ∀ ts ∈ (buckets (hourKey ip)).getD [], ts ≤ now
  hits : ∀ t, now ≤ t →
    (recent (t - window15Min) ((buckets (hourKey ip)).getD [])).Sublist
      (recent (t - window15Min) ((buckets (ipKey ip)).getD []))
  spaced : Spaced ipMaxPer15Min window15Min ((buckets (hourKey ip)).getD [])

section Alarm

variable {ip : JsString} {now : Int} {buckets : Buckets} {req : Request} {requests : List Request}

theorem keys_ne (ip : JsString) : hourKey ip ≠ ipKey ip := by
  intro h
  have hlen := congrArg List.length h
  rw [hourKey, ipKey, List.length_append, List.length_append] at hlen
  have hhour : (lit "ramp:ip:hour:").length = 13 := by decide
  have hip : (lit "ramp:ip:").length = 8 := by decide
  omega

theorem count_hour (req : Request) (buckets : Buckets) :
    count (hourKey (extractIp req)) window1Hour req.nowMs
      (record (ipKey (extractIp req)) window15Min req.nowMs buckets).2 = (hour req buckets).length := by
  have hkept : (record (ipKey (extractIp req)) window15Min req.nowMs buckets).2 (hourKey (extractIp req)) =
      buckets (hourKey (extractIp req)) := Function.update_of_ne (keys_ne _) _ _
  rw [count, hkept, hour]
  cases buckets (hourKey (extractIp req)) with
  | none => rfl
  | some timestamps => rfl

theorem limiter_refuses (h : ipMaxPer15Min ≤ (quarter req buckets).length) :
    rampIpRateLimiter req buckets =
      (⟨if ipAnomalyThresholdPerHour < (hour req buckets).length then some (hour req buckets).length else none,
          some ((quarter req buckets).length + 1), false⟩,
        Function.update buckets (ipKey (extractIp req)) (some (quarter req buckets ++ [req.nowMs]))) := by
  have hmany : ipMaxPer15Min < (record (ipKey (extractIp req)) window15Min req.nowMs buckets).1 := by
    show ipMaxPer15Min < (quarter req buckets ++ [req.nowMs]).length
    rw [List.length_append, List.length_singleton]
    omega
  have hlength : (record (ipKey (extractIp req)) window15Min req.nowMs buckets).1 =
      (quarter req buckets).length + 1 := by
    show (quarter req buckets ++ [req.nowMs]).length = _
    rw [List.length_append, List.length_singleton]
  rw [hlength] at hmany
  simp only [rampIpRateLimiter, count_hour, hlength, if_pos hmany]
  rfl

theorem limiter_lets_through (h : (quarter req buckets).length < ipMaxPer15Min) :
    rampIpRateLimiter req buckets =
      (⟨if ipAnomalyThresholdPerHour < (hour req buckets).length then some (hour req buckets).length else none,
          none, true⟩,
        Function.update
          (Function.update buckets (ipKey (extractIp req)) (some (quarter req buckets ++ [req.nowMs])))
          (hourKey (extractIp req)) (some (hour req buckets ++ [req.nowMs]))) := by
  have hfew : ¬ ipMaxPer15Min < (record (ipKey (extractIp req)) window15Min req.nowMs buckets).1 := by
    show ¬ ipMaxPer15Min < (quarter req buckets ++ [req.nowMs]).length
    rw [List.length_append, List.length_singleton]
    omega
  have hkept : (record (ipKey (extractIp req)) window15Min req.nowMs buckets).2 (hourKey (extractIp req)) =
      buckets (hourKey (extractIp req)) := Function.update_of_ne (keys_ne _) _ _
  simp only [rampIpRateLimiter, if_neg hfew, count_hour]
  rw [record, hkept]
  rfl

theorem step_refused (h : ipMaxPer15Min ≤ (quarter req buckets).length) :
    step req buckets =
      Function.update buckets (ipKey (extractIp req)) (some (quarter req buckets ++ [req.nowMs])) :=
  congrArg Prod.snd (limiter_refuses h)

theorem step_through (h : (quarter req buckets).length < ipMaxPer15Min) :
    step req buckets =
      Function.update
        (Function.update buckets (ipKey (extractIp req)) (some (quarter req buckets ++ [req.nowMs])))
        (hourKey (extractIp req)) (some (hour req buckets ++ [req.nowMs])) :=
  congrArg Prod.snd (limiter_lets_through h)

theorem highIpVolume_eq (req : Request) (buckets : Buckets) :
    (rampIpRateLimiter req buckets).1.highIpVolume =
      if ipAnomalyThresholdPerHour < (hour req buckets).length then some (hour req buckets).length
      else none := by
  rcases Nat.lt_or_ge (quarter req buckets).length ipMaxPer15Min with hfew | hmany
  · rw [limiter_lets_through hfew]
  · rw [limiter_refuses hmany]

theorem Fed.hour_spaced (h : Fed (extractIp req) now buckets) :
    Spaced ipMaxPer15Min window15Min (hour req buckets) := by
  obtain ⟨k, hk⟩ := recent_eq_drop (c := req.nowMs - window1Hour) h.sorted
  rw [hour, hk]
  exact h.spaced.drop k

/-- **THE ALARM IS OUT OF REACH**: an hour holds at most twenty that went on. -/
theorem Fed.hour_le (h : Fed (extractIp req) now buckets) (hnow : now ≤ req.nowMs) :
    (hour req buckets).length ≤ ipAnomalyThresholdPerHour := by
  refine h.hour_spaced.length_le (t := req.nowMs) 4 fun a ha => ?_
  obtain ⟨hmem, hlate⟩ := mem_recent.mp ha
  have hpast := h.past a hmem
  rw [window1Hour] at hlate
  rw [window15Min]
  omega

/-- **ONE REQUEST** of the address, no earlier than those before it. -/
theorem Fed.step (h : Fed (extractIp req) now buckets) (hnow : now ≤ req.nowMs) :
    Fed (extractIp req) req.nowMs (step req buckets) := by
  have hkeys := keys_ne (extractIp req)
  have hlater : ∀ t, req.nowMs ≤ t →
      (recent (t - window15Min) ((buckets (hourKey (extractIp req))).getD [])).Sublist
        (recent (t - window15Min) (quarter req buckets)) := by
    intro t ht
    rw [quarter, recent_recent (by omega)]
    exact h.hits t (hnow.trans ht)
  rcases Nat.lt_or_ge (quarter req buckets).length ipMaxPer15Min with hfew | hmany
  · -- it goes on: both keys get the time
    have hhour : ((FiatRamp.step req buckets) (hourKey (extractIp req))).getD [] =
        hour req buckets ++ [req.nowMs] := by
      rw [step_through hfew, Function.update_self, Option.getD_some]
    have hip : ((FiatRamp.step req buckets) (ipKey (extractIp req))).getD [] =
        quarter req buckets ++ [req.nowMs] := by
      rw [step_through hfew, Function.update_of_ne hkeys.symm, Function.update_self,
        Option.getD_some]
    refine ⟨?_, ?_, fun t ht => ?_, ?_⟩
    · rw [hhour, List.pairwise_append]
      refine ⟨h.sorted.sublist (recent_sublist _ _), List.pairwise_singleton _ _, fun a ha b hb => ?_⟩
      obtain rfl := List.mem_singleton.mp hb
      exact (h.past a (mem_recent.mp ha).1).trans hnow
    · intro ts hts
      rw [hhour, List.mem_append, List.mem_singleton] at hts
      rcases hts with hts | rfl
      · exact (h.past ts (mem_recent.mp hts).1).trans hnow
      · exact le_rfl
    · rw [hhour, hip, recent_append, recent_append]
      refine List.Sublist.append ?_ (List.Sublist.refl _)
      exact ((recent_sublist _ _).filter _).trans (hlater t ht)
    · rw [hhour]
      refine h.hour_spaced.concat (by decide) fun i a hi ha => ?_
      -- were the last five within the quarter, this one would have been refused
      by_contra hclose
      have hhours : (hour req buckets).Pairwise (· ≤ ·) := h.sorted.sublist (recent_sublist _ _)
      -- in order, so what follows the fifth from the end is within the quarter too
      have hdrop : (hour req buckets).drop i = recent (req.nowMs - window15Min) ((hour req buckets).drop i) := by
        refine (recent_of_forall fun b hb => ?_).symm
        obtain ⟨j, hj, rfl⟩ := List.mem_iff_getElem.mp hb
        have hab : a ≤ ((hour req buckets).drop i)[j] := by
          obtain ⟨hi', rfl⟩ := List.getElem?_eq_some_iff.mp ha
          rw [List.getElem_drop]
          rcases Nat.eq_zero_or_pos j with rfl | hpos
          · exact le_rfl
          · exact List.pairwise_iff_getElem.mp hhours i (i + j) hi' _ (by omega)
        omega
      have hsub : ((hour req buckets).drop i).Sublist (quarter req buckets) := by
        rw [hdrop]
        have hfed := h.hits req.nowMs hnow
        exact (((List.drop_sublist i _).trans (recent_sublist _ _)).filter _).trans hfed
      have hle := hsub.length_le
      rw [List.length_drop] at hle
      omega
  · -- it is refused: only the key of the quarter gets the time
    have hhour : ((FiatRamp.step req buckets) (hourKey (extractIp req))) =
        buckets (hourKey (extractIp req)) := by
      rw [step_refused hmany, Function.update_of_ne hkeys]
    have hip : ((FiatRamp.step req buckets) (ipKey (extractIp req))).getD [] =
        quarter req buckets ++ [req.nowMs] := by
      rw [step_refused hmany, Function.update_self, Option.getD_some]
    refine ⟨?_, ?_, fun t ht => ?_, ?_⟩
    · rw [hhour]
      exact h.sorted
    · rw [hhour]
      exact fun ts hts => (h.past ts hts).trans hnow
    · rw [hhour, hip, recent_append]
      exact (hlater t ht).trans (List.sublist_append_left _ _)
    · rw [hhour]
      exact h.spaced

theorem start_fed (ip : JsString) (now : Int) : Fed ip now start := by
  refine ⟨List.Pairwise.nil, fun ts h => ?_, fun t _ => List.nil_sublist _, spaced_nil⟩
  cases h

/-- **ANY REQUESTS** of one address, in order of time. -/
theorem Fed.run {t : Int} (h : Fed ip now buckets) (hone : ∀ r ∈ requests, extractIp r = ip)
    (hordered : (now :: requests.map Request.nowMs ++ [t]).Pairwise (· ≤ ·)) :
    ∃ last ≤ t, Fed ip last (exec FiatRamp.step requests buckets) := by
  induction requests generalizing now buckets with
  | nil => exact ⟨now, (List.pairwise_cons.mp hordered).1 t (by simp), h⟩
  | cons req requests ih =>
      obtain ⟨hfirst, hrest⟩ := List.pairwise_cons.mp hordered
      obtain rfl := hone req List.mem_cons_self
      exact ih (h.step (hfirst _ (by simp))) (fun r hr => hone r (List.mem_cons_of_mem _ hr)) hrest

/-- **THE ALARM NEVER RINGS**: whatever requests one address sends in order of time, and
    however many of them within the hour, the next raises nothing. -/
theorem high_ip_volume_never (ip : JsString) (requests : List Request) (req : Request)
    (hone : ∀ r ∈ requests ++ [req], extractIp r = ip)
    (hordered : ((requests ++ [req]).map Request.nowMs).Pairwise (· ≤ ·)) :
    (rampIpRateLimiter req (exec FiatRamp.step requests start)).1.highIpVolume = none := by
  obtain ⟨now, hnow⟩ := exists_first hordered (by simp)
  obtain rfl := hone req (by simp)
  have hfull : (now :: requests.map Request.nowMs ++ [req.nowMs]).Pairwise (· ≤ ·) := by
    rw [List.map_append, List.map_singleton] at hordered hnow
    exact List.pairwise_cons.mpr ⟨hnow, hordered⟩
  obtain ⟨last, hlast, hfed⟩ := (start_fed (extractIp req) now).run
    (fun r hr => hone r (List.mem_append_left _ hr)) hfull
  rw [highIpVolume_eq, if_neg (Nat.not_lt.mpr (hfed.hour_le hlast))]

end Alarm

/-- A request of one address. -/
def sample (nowMs : Int) : Request := ⟨none, some (lit "10.0.0.1"), none, nowMs⟩

/-- Twenty-one requests at once, and one more. -/
theorem high_ip_volume_never_sample :
    (rampIpRateLimiter (sample 0) (exec FiatRamp.step (List.replicate 21 (sample 0)) start)).1.highIpVolume =
      none := by
  refine high_ip_volume_never (lit "10.0.0.1") (List.replicate 21 (sample 0)) (sample 0) (fun r hr => ?_) ?_
  · rcases List.mem_append.mp hr with hr | hr
    · obtain rfl := List.eq_of_mem_replicate hr
      rfl
    · obtain rfl := List.mem_singleton.mp hr
      rfl
  · simp [sample]

/-- **TWENTY-ONE WITHIN THE HOUR**: the next one should raise the alarm, and does not. -/
theorem crowded_hour_is_silent :
    ipAnomalyThresholdPerHour < ((List.replicate 21 (sample 0)).filter fun r =>
        0 - window1Hour < r.nowMs ∧ r.nowMs ≤ 0).length ∧
      (rampIpRateLimiter (sample 0) (exec FiatRamp.step (List.replicate 21 (sample 0)) start)).1.highIpVolume =
        none := by
  decide +kernel

end FiatRamp
