import Kinetix.Foundation.IpAddr
import Kinetix.Foundation.Words
import Kinetix.Library.FixedWindow
import Kinetix.Library.KeyedTable
import Kinetix.Library.Machine

/-!
# The limiter by address

`ratelimit.rs`: a window of a minute for each address, and a sweep of the stale ones when there are
too many. Windows that the sweep drops have ended, so each address is limited as if nothing were
ever dropped. The sweep makes room only if some window is two minutes old, and there is none in a
flood of new addresses.

## Implementation notes

An `Instant` is in nanoseconds. A request is one call of `check`, at the instant that it reads.
-/

namespace Kinetix.RateLimit
open FixedWindow KeyedTable Net StateMachine Words

/-- `MAX_ENTRIES`. -/
def maxEntries : Nat := 100000

/-- A second in nanoseconds. -/
def second : Nat := 1000000000

/-- The `window` of a limiter. -/
def window : Nat := 60 * second

/-- An entry of the map, with its key. -/
structure Window where
  ip : String
  started : Nat
  count : Nat

/-- `IpLimiter`. -/
structure IpLimiter where
  limit : Nat
  map : Table Window.ip
  limited : Nat

namespace IpLimiter

def new (limitPerMin : Nat) : IpLimiter := ⟨limitPerMin, Table.empty Window.ip, 0⟩

def enabled (l : IpLimiter) : Bool := 0 < l.limit

def sweep (l : IpLimiter) (now : Nat) : IpLimiter :=
  { l with map := l.map.filterRows fun w => now - w.started < window * 2 }

/-- The entry of an address with the request counted. -/
def entry (l : IpLimiter) (ip : IpAddr) (now : Nat) : Window :=
  let entry := (l.map.find ip.text).getD ⟨ip.text, now, 0⟩
  let entry :=
    if window ≤ now - entry.started then { entry with started := now, count := 0 } else entry
  { entry with count := wrappingAdd entry.count 1 }

/-- The limiter without its stale windows, if it has too many. -/
def swept (l : IpLimiter) (now : Nat) : IpLimiter :=
  if maxEntries < l.map.rows.length then l.sweep now else l

/-- An error is the number of seconds after which to retry. -/
def check (l : IpLimiter) (ip : Option IpAddr) (now : Nat) : Except Nat Unit × IpLimiter :=
  if !l.enabled then (.ok (), l)
  else
    match ip with
    | none => (.ok (), l)
    | some ip =>
      let l := l.swept now
      let entry := l.entry ip now
      let l := { l with map := l.map.upsert entry }
      if l.limit < entry.count then
        let elapsed := (now - entry.started) / second
        (.error (max (window / second - elapsed) 1),
          { l with limited := wrappingAdd l.limited 1 })
      else (.ok (), l)

end IpLimiter

/-! ## Runs -/

structure Request where
  ip : Option IpAddr
  now : Nat

/-- What a request of an address was answered, and the window that it fell into. -/
structure Answer extends Hit where
  ip : IpAddr

structure State where
  limiter : IpLimiter
  /-- The instant of the last request. -/
  clock : Nat

/-- Requests, in the order of their instants. -/
def ipLimiter (limitPerMin : Nat) : Machine State Request where
  start := ⟨.new limitPerMin, 0⟩
  step s r := if s.clock ≤ r.now then some ⟨(s.limiter.check r.ip r.now).2, r.now⟩ else none

def answer (s : State) (r : Request) : List Answer :=
  match r.ip with
  | none => []
  | some ip =>
    [{ ip
       time := r.now
       started :=
        if s.limiter.enabled then ((s.limiter.swept r.now).entry ip r.now).started else r.now
       admitted := (s.limiter.check (some ip) r.now).1.isOk }]

/-- The answers to the addresses that have a text. -/
def history (text : String) (answers : List Answer) : List Hit :=
  (answers.filter (·.ip.text = text)).map Answer.toHit

/-- The requests of each address fall into windows of a minute, no more than the limit are admitted
in a window and no more than twice as many in any minute, and the map stays within its bound. -/
structure Bounded (limit : Nat) (answers : List Answer) (s : State) : Prop where
  windowed : ∀ ip : IpAddr, Windowed window (history ip.text answers)
  perWindow : ∀ (ip : IpAddr) (started : Nat),
    (answers.countP fun x => x.ip = ip ∧ x.started = started ∧ x.admitted) ≤ limit
  perMinute : ∀ (ip : IpAddr) (t : Nat),
    (answers.countP fun x => x.ip = ip ∧ (t ≤ x.time ∧ x.time ≤ t + window) ∧ x.admitted) ≤
      2 * limit
  tracked : s.limiter.map.rows.length ≤ maxEntries + 1

/-- When an address is new and there are too many windows, one of them is stale; and the count of a
running window is not the largest number. -/
def Roomy (s : State) (r : Request) : Prop :=
  ∀ ip, r.ip = some ip →
    match s.limiter.map.find ip.text with
    | none => maxEntries < s.limiter.map.rows.length →
        ∃ w ∈ s.limiter.map.rows, w.started + window * 2 ≤ r.now
    | some w => r.now < w.started + window → w.count < u64Max

/-! ## One request -/

variable {l : IpLimiter} {ip : IpAddr} {now limit : Nat} {s s' : State} {r : Request}
  {answers : List Answer}

def Window.counter (w : Window) : Counter := ⟨w.started, w.count⟩

theorem entry_ip (l : IpLimiter) (ip : IpAddr) (now : Nat) : (l.entry ip now).ip = ip.text := by
  have hfound : ((l.map.find ip.text).getD ⟨ip.text, now, 0⟩).ip = ip.text := by
    cases h : l.map.find ip.text with
    | none => rfl
    | some w => exact (Table.find_eq_some.mp h).2
  unfold IpLimiter.entry
  dsimp only
  split <;> exact hfound

/-- The entry counts the request as a counter does, if its count does not overflow. -/
theorem entry_counter (l : IpLimiter) (ip : IpAddr) (now : Nat)
    (h : ∀ w, l.map.find ip.text = some w → now < w.started + window → w.count < u64Max) :
    (l.entry ip now).counter =
      Counter.hit window now ((l.map.find ip.text).map Window.counter) := by
  have hone : wrappingAdd 0 1 = 1 := rfl
  unfold IpLimiter.entry
  cases hfind : l.map.find ip.text with
  | none =>
    have hpos : ¬ window ≤ now - now := by simp [window, second]
    simp only [Option.getD_none, hpos, if_false, hone, Option.map_none, Counter.hit,
      Window.counter]
  | some w =>
    simp only [Option.getD_some, Option.map_some, Counter.hit, Window.counter]
    by_cases hended : window ≤ now - w.started
    · simp only [hended, if_true, hone]
    · have hcount : w.count < u64Max := h w hfind (by omega)
      have hsum : wrappingAdd w.count 1 = w.count + 1 := wrappingAdd_of_le hcount
      simp only [hended, if_false, hsum]

theorem find_swept (l : IpLimiter) (now : Nat) (text : String) :
    (l.swept now).map.find text = l.map.find text ∨
      ∃ w, l.map.find text = some w ∧ w.started + window * 2 ≤ now ∧
        (l.swept now).map.find text = none := by
  unfold IpLimiter.swept
  split
  · simp only [IpLimiter.sweep, Table.find_filterRows]
    cases h : l.map.find text with
    | none => exact .inl rfl
    | some w =>
      by_cases hfresh : now - w.started < window * 2
      · exact .inl (by simp [hfresh])
      · have hpos : 0 < window := by decide
        exact .inr ⟨w, rfl, by omega, by simpa using hfresh⟩
  · exact .inl rfl

/-- The sweep only drops windows that have ended. -/
theorem tracks_swept {text : String} {h : List Hit}
    (T : Tracks window limit now ((l.map.find text).map Window.counter) h) :
    Tracks window limit now (((l.swept now).map.find text).map Window.counter) h := by
  rcases find_swept l now text with hsame | ⟨w, hw, hstale, hnone⟩
  · rwa [hsame]
  · rw [hw, Option.map_some] at T
    rw [hnone]
    refine T.drop ?_
    change w.started + window ≤ now
    omega

theorem swept_limit (l : IpLimiter) (now : Nat) : (l.swept now).limit = l.limit := by
  unfold IpLimiter.swept
  split <;> rfl

theorem swept_length_le (l : IpLimiter) (now : Nat) :
    (l.swept now).map.rows.length ≤ l.map.rows.length := by
  unfold IpLimiter.swept
  split
  · exact List.length_filter_le _ _
  · exact le_rfl

/-- What a request of an address does to an enabled limiter. -/
theorem check_some (ip : IpAddr) (now : Nat) (h : 0 < l.limit) :
    (l.check (some ip) now).2.limit = l.limit ∧
      (l.check (some ip) now).2.map = (l.swept now).map.upsert ((l.swept now).entry ip now) ∧
        (l.check (some ip) now).1.isOk = decide (((l.swept now).entry ip now).count ≤ l.limit) := by
  have henabled : l.enabled = true := decide_eq_true h
  unfold IpLimiter.check
  simp only [henabled, Bool.not_true, Bool.false_eq_true, if_false, swept_limit]
  split
  · rename_i hover
    exact ⟨rfl, rfl, (decide_eq_false (not_le.mpr hover)).symm⟩
  · rename_i hwithin
    exact ⟨rfl, rfl, (decide_eq_true (not_lt.mp hwithin)).symm⟩

/-- A sweep that is due and finds a stale window makes room for an entry. -/
theorem swept_length_lt (hfull : maxEntries < l.map.rows.length)
    (hstale : ∃ w ∈ l.map.rows, w.started + window * 2 ≤ now) :
    (l.swept now).map.rows.length < l.map.rows.length := by
  obtain ⟨w, hw, hstale⟩ := hstale
  have hpos : 0 < window := by decide
  rw [IpLimiter.swept, if_pos hfull]
  refine List.length_filter_lt_length_iff_exists.mpr ⟨w, hw, ?_⟩
  rw [decide_eq_true_eq]
  omega

/-- The map stays within its bound if a sweep makes room. -/
theorem check_length_le (h : 0 < l.limit) (hlen : l.map.rows.length ≤ maxEntries + 1)
    (hroom : l.map.find ip.text = none → maxEntries < l.map.rows.length →
      ∃ w ∈ l.map.rows, w.started + window * 2 ≤ now) :
    (l.check (some ip) now).2.map.rows.length ≤ maxEntries + 1 := by
  rw [(check_some ip now h).2.1]
  have hkey := entry_ip (l.swept now) ip now
  cases hfind : (l.swept now).map.find ip.text with
  | some w =>
    refine (Table.length_upsert_le_of_found ?_).trans ((swept_length_le l now).trans hlen)
    rw [hkey, hfind]
    rfl
  | none =>
    rw [Table.length_upsert_of_fresh (hkey.symm ▸ hfind)]
    by_cases hfull : maxEntries < l.map.rows.length
    · have hstale : ∃ w ∈ l.map.rows, w.started + window * 2 ≤ now := by
        rcases find_swept l now ip.text with hsame | ⟨w, hw, hstale, -⟩
        · exact hroom (hsame.symm.trans hfind) hfull
        · exact ⟨w, (Table.find_eq_some.mp hw).1, hstale⟩
      have hlt := swept_length_lt hfull hstale
      omega
    · have hle := swept_length_le l now
      omega

/-! ## Runs -/

/-- The map holds a counter for each address that is behind what the address was answered. -/
structure Tracking (limit : Nat) (answers : List Answer) (s : State) : Prop where
  limit_eq : s.limiter.limit = limit
  tracks : ∀ text, Tracks window limit s.clock ((s.limiter.map.find text).map Window.counter)
    (history text answers)
  length_le : s.limiter.map.rows.length ≤ maxEntries + 1

theorem tracking_start (limit : Nat) : Tracking limit [] (ipLimiter limit).start where
  limit_eq := rfl
  tracks _ := tracks_nil window limit 0
  length_le := Nat.zero_le _

theorem history_append (text : String) (xs ys : List Answer) :
    history text (xs ++ ys) = history text xs ++ history text ys := by
  rw [history, List.filter_append, List.map_append]
  rfl

theorem tracking_step (hpos : 0 < limit) (I : Tracking limit answers s) (hroomy : Roomy s r)
    (h : (ipLimiter limit).step s r = some s') : Tracking limit (answers ++ answer s r) s' := by
  obtain ⟨hclock, hs'⟩ := Option.ite_none_right_eq_some.mp h
  obtain rfl := Option.some.inj hs'
  have hlimit : 0 < s.limiter.limit := I.limit_eq.symm ▸ hpos
  have hlater : ∀ text, Tracks window limit r.now
      ((s.limiter.map.find text).map Window.counter) (history text answers) :=
    fun text => (I.tracks text).later hclock
  cases hip : r.ip with
  | none =>
    have hcheck : (s.limiter.check none r.now).2 = s.limiter := by
      unfold IpLimiter.check
      split <;> rfl
    simp only [answer, hip, List.append_nil, hcheck]
    exact ⟨I.limit_eq, hlater, I.length_le⟩
  | some ip =>
    obtain ⟨hsame, hmap, hok⟩ := check_some ip r.now hlimit
    have hroom := hroomy ip hip
    refine ⟨hsame.trans I.limit_eq, fun text => ?_, check_length_le hlimit I.length_le ?_⟩
    · have hanswer : answer s r =
          [⟨((s.limiter.swept r.now).entry ip r.now).counter.answer limit r.now, ip⟩] := by
        simp [answer, hip, hok, IpLimiter.enabled, hpos.ne', Counter.answer, Window.counter,
          I.limit_eq]
        exact decide_eq_decide.mpr Iff.rfl
      have hkey := entry_ip (s.limiter.swept r.now) ip r.now
      have hswept := tracks_swept (hlater text)
      rw [hmap, Table.find_upsert, hanswer, history_append, hkey]
      by_cases htext : ip.text = text
      · subst htext
        have hcounter := entry_counter (s.limiter.swept r.now) ip r.now ?_
        · have hhistory : ∀ x : Hit, history ip.text [⟨x, ip⟩] = [x] := by simp [history]
          rw [if_pos rfl, hhistory, Option.map_some, hcounter]
          exact hswept.hit (by decide)
        · intro w hw hrunning
          rcases find_swept s.limiter r.now ip.text with hfind | ⟨-, -, -, hnone⟩
          · simp only [hfind.symm.trans hw] at hroom
            exact hroom hrunning
          · rw [hnone] at hw
            cases hw
      · have hhistory : ∀ x : Hit, history text [⟨x, ip⟩] = [] := by simp [history, htext]
        rw [if_neg htext, hhistory, List.append_nil]
        exact hswept
    · intro hfind
      simpa only [hfind] using hroom

theorem countP_le_history {p : Answer → Bool} {q : Hit → Bool} (text : String)
    (h : ∀ x : Answer, p x → x.ip.text = text ∧ q x.toHit) (answers : List Answer) :
    answers.countP p ≤ (history text answers).countP q := by
  rw [history, List.countP_map, List.countP_filter]
  refine List.countP_mono_left fun x _ hx => ?_
  obtain ⟨htext, hq⟩ := h x hx
  simp [htext, hq]

theorem bounded_of_tracking (T : Tracking limit answers s) : Bounded limit answers s where
  windowed ip := (T.tracks ip.text).windowed
  perWindow ip started := by
    refine le_trans ?_ ((T.tracks ip.text).limited started)
    exact countP_le_history ip.text (by simp +contextual) answers
  perMinute ip t := by
    refine le_trans ?_ (countP_interval_le (T.tracks ip.text).windowed (T.tracks ip.text).limited t)
    exact countP_le_history ip.text (by simp +contextual) answers
  tracked := T.length_le

/-- In a run in which the sweep always finds a stale window when it has to make room, an enabled
limiter keeps its bounds. -/
theorem ip_limiter_bounded (hpos : 0 < limit) {requests : List Request}
    (h : (ipLimiter limit).Meets (fun _ => Roomy) requests)
    (hs : (ipLimiter limit).run requests = some s) :
    Bounded limit ((ipLimiter limit).emitted answer requests) s := by
  have hrun := (ipLimiter limit).run_induction_of_meets
    (I := fun as s => (ipLimiter limit).run as = some s ∧
      Tracking limit ((ipLimiter limit).emitted answer as) s)
    ⟨rfl, tracking_start limit⟩ ?_ requests s h hs
  · exact bounded_of_tracking hrun.2
  · rintro as s a s' ⟨hrun, I⟩ hroomy hstep
    refine ⟨((ipLimiter limit).run_snoc_eq_some).mpr ⟨s, hrun, hstep⟩, ?_⟩
    rw [(ipLimiter limit).emitted_snoc answer hrun hstep]
    exact tracking_step hpos I hroomy hstep

/-- Two requests of one address, of which the second one is over the limit. -/
theorem ip_limiter_bounded_pair :
    ∃ s, (ipLimiter 1).run [⟨some (.v4 0), 0⟩, ⟨some (.v4 0), second⟩] = some s ∧
      Bounded 1 ((ipLimiter 1).emitted answer [⟨some (.v4 0), 0⟩, ⟨some (.v4 0), second⟩]) s := by
  refine ⟨_, rfl, ip_limiter_bounded Nat.one_pos (Machine.Along.meets _ ?_) rfl⟩
  refine ⟨?_, ?_, trivial⟩
  · intro ip hip hfull
    exact absurd hfull (by decide)
  · intro ip hip
    obtain rfl := Option.some.inj hip
    exact fun _ => by decide

/-! ## A flood -/

/-- A request of each of the first addresses, at one instant. -/
def flood (n : Nat) : List Request :=
  (List.range n).map fun i => ⟨some (.v4 (BitVec.ofNat 32 i)), 0⟩

theorem text_v4 {n : Nat} (hn : n < 2 ^ 32) :
    (IpAddr.v4 (BitVec.ofNat 32 n)).text = ipv4Text n := by
  rw [IpAddr.text, BitVec.toNat_ofNat, Nat.mod_eq_of_lt hn]

/-- Nothing is stale at the instant at which all windows began. -/
theorem rows_swept_of_fresh (h : ∀ w ∈ l.map.rows, w.started = now) :
    (l.swept now).map.rows = l.map.rows := by
  unfold IpLimiter.swept
  split
  · refine List.filter_eq_self.mpr fun w hw => ?_
    simp [h w hw, window, second]
  · rfl

theorem entry_started_of_fresh (h : l.map.find ip.text = none) :
    (l.entry ip now).started = now := by
  unfold IpLimiter.entry
  rw [h, Option.getD_none]
  dsimp only
  split <;> rfl

/-- New addresses are tracked one after the other: no window of the same instant is stale. -/
theorem flood_tracked {n : Nat} (hn : n < 2 ^ 32) :
    ∃ s, (ipLimiter 1).run (flood n) = some s ∧ s.clock = 0 ∧ s.limiter.limit = 1 ∧
      s.limiter.map.rows.length = n ∧
        ∀ w ∈ s.limiter.map.rows, w.started = 0 ∧ ∃ i < n, w.ip = ipv4Text i := by
  induction n with
  | zero => exact ⟨_, rfl, rfl, rfl, rfl, fun w hw => absurd hw List.not_mem_nil⟩
  | succ n ih =>
    obtain ⟨s, hrun, hclock, hlimit, hlen, hrows⟩ := ih (by omega)
    have hpos : 0 < s.limiter.limit := hlimit ▸ Nat.one_pos
    have htext := text_v4 (n := n) (by omega)
    obtain ⟨hsame, hmap, -⟩ := check_some (.v4 (BitVec.ofNat 32 n)) 0 hpos
    have hswept := rows_swept_of_fresh fun w hw => (hrows w hw).1
    have hfresh : (s.limiter.swept 0).map.find (IpAddr.v4 (BitVec.ofNat 32 n)).text = none := by
      rw [Table.find_eq_none, hswept, htext]
      intro w hw htext
      obtain ⟨-, i, hi, hip⟩ := hrows w hw
      have heq := ipv4Text_inj (by omega) (by omega) (hip.symm.trans htext)
      omega
    have hkey := entry_ip (s.limiter.swept 0) (.v4 (BitVec.ofNat 32 n)) 0
    refine ⟨⟨(s.limiter.check (some (.v4 (BitVec.ofNat 32 n))) 0).2, 0⟩, ?_, rfl,
      hsame.trans hlimit, ?_, ?_⟩
    · rw [flood, List.range_succ, List.map_append]
      refine (ipLimiter 1).run_snoc_eq_some.mpr ⟨s, hrun, ?_⟩
      exact if_pos hclock.le
    · rw [hmap, Table.length_upsert_of_fresh (hkey.symm ▸ hfresh), hswept, hlen]
    · intro w hw
      rw [hmap, Table.mem_upsert, hswept] at hw
      rcases hw with rfl | ⟨hw, -⟩
      · exact ⟨entry_started_of_fresh hfresh, n, Nat.lt_succ_self n, hkey.trans htext⟩
      · obtain ⟨hstarted, i, hi, hip⟩ := hrows w hw
        exact ⟨hstarted, i, Nat.lt_succ_of_lt hi, hip⟩

/-- A hundred thousand addresses and two more, at one instant, are all tracked. -/
theorem flood_exceeds : ¬ ∀ (limit : Nat) (requests : List Request) (s : State), 0 < limit →
    (ipLimiter limit).run requests = some s →
    Bounded limit ((ipLimiter limit).emitted answer requests) s := by
  intro hall
  obtain ⟨s, hrun, -, -, hlen, -⟩ := flood_tracked (n := 100002) (by decide)
  have htracked := (hall 1 (flood 100002) s Nat.one_pos hrun).tracked
  rw [hlen] at htracked
  exact absurd htracked (by decide)

end Kinetix.RateLimit
