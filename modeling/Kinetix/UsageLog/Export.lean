import Kinetix.Foundation.ClockText
import Kinetix.Foundation.Words
import Kinetix.Library.Binary64
import Kinetix.Library.Machine

/-!
# The daily export

`run_export` writes three files for each closed UTC day of the lookback that has rows and no JSONL
file yet, and then removes what is older than the retention. A day's rows are those whose timestamp
texts lie between two midnight texts. These end with a `Z`, which is greater than the `+` or the
point of a timestamp, so that the first second of a day counts to the day before.

## Implementation notes

A file is known by its kind and its day. How a row is written as JSON, a record as CSV and a cost
with six digits is a parameter. The totals of tokens wrap and the total of costs is rounded at each
addition. Each file operation can be the last: what it appends can be cut anywhere.
-/

namespace Kinetix.UsageLog
open Binary64 Clock StateMachine

/-- A row of `usage_logs`, with the columns that are exported. -/
structure UsageLogRow where
  time : Int
  requestId : String
  keyName : Option String
  clientFormat : String
  requestedModel : String
  effectiveModel : Option String
  routeName : Option String
  fallbackHops : Int
  status : String
  statusCode : Int
  latencyMs : Option Int
  ttftMs : Option Int
  inputTokens : Option Int
  outputTokens : Option Int
  cachedTokens : Option Int
  cacheWriteTokens : Option Int
  thinkingTokens : Option Int
  costUsd : Option ℚ
  costKnown : Int
  usageConfidence : String
  cacheStatus : String
  servingAccount : Option String
  servingProvider : Option String
  errorMessage : Option String

/-- `now_iso`. -/
def UsageLogRow.ts (r : UsageLogRow) : String := toRfc3339 r.time

/-- The texts that other libraries make. -/
structure Formats where
  /-- `serde_json::to_string` of a row, and the end of the line. -/
  jsonLine : UsageLogRow → List Char
  /-- `csv::Writer::write_record`. -/
  csvLine : List String → List Char
  /-- `{:.6}`. -/
  fixed6 : ℚ → String

/-- `db::usage_between`. -/
def usageBetween (table : List UsageLogRow) (fromIso toIso : String) : List UsageLogRow :=
  (table.filter fun r => fromIso ≤ r.ts ∧ r.ts < toIso).mergeSort fun a b => a.ts ≤ b.ts

/-- A file of a day. -/
inductive ExportFile where
  | jsonl
  | csv
  | summary
  deriving DecidableEq

/-- The files of a day. -/
abbrev Files := ExportFile → Option (List Char)

/-- An operation on a file. -/
inductive FileOp where
  /-- An old file is emptied. -/
  | create (f : ExportFile)
  | append (f : ExportFile) (text : List Char)

def FileOp.run (files : Files) : FileOp → Files
  | .create f => Function.update files f (some [])
  | .append f text => Function.update files f ((files f).map (· ++ text))

/-- The operations that write a file. -/
def writeFile (f : ExportFile) (texts : List (List Char)) : List FileOp :=
  .create f :: texts.map (.append f)

def csvHeader : List String :=
  ["ts", "request_id", "key_name", "client_format", "requested_model", "effective_model",
    "route_name", "fallback_hops", "status", "status_code", "latency_ms", "ttft_ms",
    "input_tokens", "output_tokens", "cached_tokens", "cache_write_tokens", "thinking_tokens",
    "cost_usd", "cost_known", "usage_confidence", "cache_status", "serving_account",
    "serving_provider", "error_message"]

def summaryHeader : List String :=
  ["day", "requests", "input_tokens", "output_tokens", "cached_tokens", "cache_write_tokens",
    "thinking_tokens", "cost_usd", "fallbacks", "errors"]

section Texts
variable (F : Formats)

/-- `map(|v| v.to_string()).unwrap_or_default()`. -/
def numberText (v : Option Int) : String := (v.map toString).getD ""

/-- A line of the log of a day. -/
def csvRecord (r : UsageLogRow) : List String :=
  [r.ts, r.requestId, r.keyName.getD "", r.clientFormat, r.requestedModel,
    r.effectiveModel.getD "", r.routeName.getD "", toString r.fallbackHops, r.status,
    toString r.statusCode, numberText r.latencyMs, numberText r.ttftMs, numberText r.inputTokens,
    numberText r.outputTokens, numberText r.cachedTokens, numberText r.cacheWriteTokens,
    numberText r.thinkingTokens, (r.costUsd.map F.fixed6).getD "", toString r.costKnown,
    r.usageConfidence, r.cacheStatus, r.servingAccount.getD "", r.servingProvider.getD "",
    r.errorMessage.getD ""]

/-- The `i64` sum of a column. -/
def total (rows : List UsageLogRow) (column : UsageLogRow → Option Int) : Int :=
  Words.wrapI64 (rows.filterMap column).sum

def isError (r : UsageLogRow) : Bool :=
  500 ≤ r.statusCode || r.status = "upstream_error" || r.status = "stream_error"

/-- The line of a day in the summary. -/
def summaryRecord (day : Int) (rows : List UsageLogRow) : List String :=
  [String.ofList (dateText day), toString rows.length,
    toString (total rows UsageLogRow.inputTokens), toString (total rows UsageLogRow.outputTokens),
    toString (total rows UsageLogRow.cachedTokens),
    toString (total rows UsageLogRow.cacheWriteTokens),
    toString (total rows UsageLogRow.thinkingTokens),
    F.fixed6 (sumF64 (rows.filterMap UsageLogRow.costUsd)),
    toString (rows.countP fun r => 0 < r.fallbackHops), toString (rows.countP isError)]

/-- What is appended to a file of a day, text by text. -/
def fileTexts (day : Int) (rows : List UsageLogRow) : ExportFile → List (List Char)
  | .jsonl => rows.map F.jsonLine
  | .csv => (csvHeader :: rows.map (csvRecord F)).map F.csvLine
  | .summary => [summaryHeader, summaryRecord F day rows].map F.csvLine

/-- `write_day`. -/
def writeDay (day : Int) (rows : List UsageLogRow) : List FileOp :=
  writeFile .jsonl (fileTexts F day rows .jsonl) ++
    (writeFile .csv (fileTexts F day rows .csv) ++
      writeFile .summary (fileTexts F day rows .summary))

end Texts

/-- The first `n` operations and `m` characters of what the next one appends. -/
def cutAt (ops : List FileOp) (n m : Nat) : List FileOp :=
  ops.take n ++ match ops[n]? with
    | some (.append f text) => [.append f (text.take m)]
    | some (.create _) | none => []

/-- What can go wrong with a day. -/
structure DayFault where
  /-- `path.exists()` can be false because it failed. -/
  checked : Bool := true
  /-- The rows can be read. -/
  read : Bool := true
  /-- The operation at which writing stops, and how much of it is done. -/
  cut : Option (Nat × Nat) := none

/-- The table, the files and the export under way. -/
structure ExportState where
  table : List UsageLogRow
  dir : Int → Files
  /-- The day on which the last call began. -/
  today : Int
  /-- The offset that is next in a call. -/
  call : Option Nat

/-- A row is stored, or a call begins, goes on or ends. -/
inductive ExportAction where
  /-- `insert_usage_log`. -/
  | insert (r : UsageLogRow)
  /-- A call begins. -/
  | begin (today : Int)
  /-- The call looks at its next day. -/
  | day (fault : DayFault)
  /-- The call is interrupted between two days. -/
  | interrupt
  /-- The call prunes and returns `Ok`; some files cannot be removed. -/
  | finish (pruneDay : Int) (removed : Int → ExportFile → Bool)

/-- `prune`. -/
def prune (dir : Int → Files) (retentionDays pruneDay : Int) (removed : Int → ExportFile → Bool) :
    Int → Files := fun day f =>
  if 0 < retentionDays ∧ day < pruneDay - retentionDays ∧ removed day f then none else dir day f

section Model
variable (F : Formats) (lookbackDays : Nat) (retentionDays : Int)

/-- The body of the loop of `run_export`. -/
def ExportState.exportDay (s : ExportState) (offset : Nat) (fault : DayFault) : ExportState :=
  let day := s.today - offset
  if fault.checked ∧ (s.dir day .jsonl).isSome then { s with call := some (offset + 1) }
  else if fault.read = false then { s with call := none }
  else
    let rows := usageBetween s.table (midnightText day) (midnightText (day + 1))
    if rows.isEmpty then { s with call := some (offset + 1) }
    else
      match fault.cut with
      | none =>
        { s with
          dir := Function.update s.dir day ((writeDay F day rows).foldl FileOp.run (s.dir day))
          call := some (offset + 1) }
      | some (n, m) =>
        { s with
          dir := Function.update s.dir day
            ((cutAt (writeDay F day rows) n m).foldl FileOp.run (s.dir day))
          call := none }

/-- A step of the process. -/
def ExportState.act (s : ExportState) : ExportAction → Option ExportState
  | .insert r => some { s with table := s.table ++ [r] }
  | .begin today =>
    if s.call = none ∧ s.today ≤ today then some { s with today, call := some 1 } else none
  | .day fault =>
    match s.call with
    | some offset => if offset ≤ lookbackDays then some (s.exportDay F offset fault) else none
    | none => none
  | .interrupt => s.call.map fun _ => { s with call := none }
  | .finish pruneDay removed =>
    match s.call with
    | some offset =>
      if lookbackDays < offset then
        some { s with dir := prune s.dir retentionDays pruneDay removed, call := none }
      else none
    | none => none

/-- The usage log and the export directory, from the first start. -/
def usageExport (today : Int) : Machine ExportState ExportAction where
  start := ⟨[], fun _ _ => none, today, none⟩
  step s a := s.act F lookbackDays retentionDays a

end Model

/-! ## What is written -/

variable {F : Formats} {d : Int} {rows table : List UsageLogRow} {files : Files}

/-- The rows whose timestamp lies in a UTC day. -/
def dayRows (table : List UsageLogRow) (day : Int) : List UsageLogRow :=
  table.filter fun r => dateNaive r.time = day

/-- The three files hold these rows. -/
def Holds (F : Formats) (day : Int) (rows : List UsageLogRow) (files : Files) : Prop :=
  ∀ f, files f = some (fileTexts F day rows f).flatten

/-- The three files of a day hold its rows, in some order. -/
def Complete (F : Formats) (table : List UsageLogRow) (day : Int) (files : Files) : Prop :=
  ∃ rows, rows.Perm (dayRows table day) ∧ Holds F day rows files

theorem foldl_append (f : ExportFile) (texts : List (List Char)) {start : List Char}
    (h : files f = some start) :
    (texts.map (FileOp.append f)).foldl FileOp.run files =
      Function.update files f (some (start ++ texts.flatten)) := by
  induction texts generalizing files start with
  | nil => simp [← h]
  | cons text texts ih =>
    rw [List.map_cons, List.foldl_cons, FileOp.run, h, Option.map_some,
      ih (Function.update_self ..), Function.update_idem, List.flatten_cons, List.append_assoc]

/-- A file that is written is what is appended to it. -/
theorem foldl_writeFile (f : ExportFile) (texts : List (List Char)) (files : Files) :
    (writeFile f texts).foldl FileOp.run files =
      Function.update files f (some texts.flatten) := by
  rw [writeFile, List.foldl_cons, FileOp.run, foldl_append f texts (Function.update_self ..),
    Function.update_idem, List.nil_append]

theorem holds_writeDay (F : Formats) (d : Int) (rows : List UsageLogRow) (files : Files) :
    Holds F d rows ((writeDay F d rows).foldl FileOp.run files) := by
  intro f
  rw [writeDay, List.foldl_append, List.foldl_append, foldl_writeFile, foldl_writeFile,
    foldl_writeFile]
  cases f <;> simp [Function.update]

/-- A row after the first second of its day. -/
def Late (r : UsageLogRow) : Prop := Plain r.time ∧ secondOfDay r.time ≠ 0

/-- If no row lies in the first second of a day, the rows between two midnight texts are those of
the day. -/
theorem usageBetween_perm (htable : ∀ r ∈ table, Late r) (hd : PlainYear d)
    (hnext : PlainYear (d + 1)) :
    (usageBetween table (midnightText d) (midnightText (d + 1))).Perm (dayRows table d) := by
  have hrows : (table.filter fun r => midnightText d ≤ r.ts ∧ r.ts < midnightText (d + 1)) =
      dayRows table d := by
    refine List.filter_congr fun r hr => decide_eq_decide.mpr ?_
    obtain ⟨hplain, hsecond⟩ := htable r hr
    rw [UsageLogRow.ts, ← not_lt, toRfc3339_lt_midnightText_iff hplain hd,
      toRfc3339_lt_midnightText_iff hplain hnext]
    omega
  rw [usageBetween, hrows]
  exact List.mergeSort_perm _ _

/-! ## Runs -/

variable {lookbackDays : Nat} {retentionDays : Int} {s s' : ExportState} {a : ExportAction}

/-- Each closed day of the lookback that has rows has its three files. -/
def ExportState.Exported (F : Formats) (lookbackDays : Nat) (s : ExportState) : Prop :=
  ∀ d, s.today - lookbackDays ≤ d → d < s.today → dayRows s.table d ≠ [] →
    Complete F s.table d (s.dir d)

/-- Whenever a call has returned `Ok`, the export is complete. -/
def ExportExact (F : Formats) (lookbackDays : Nat) (retentionDays today : Int)
    (as : List ExportAction) : Prop :=
  ∀ pre pruneDay removed post s, as = pre ++ .finish pruneDay removed :: post →
    (usageExport F lookbackDays retentionDays today).run (pre ++ [.finish pruneDay removed]) =
      some s → s.Exported F lookbackDays

/-- The days that a call has looked at. -/
def ExportState.Scanned (s : ExportState) (d : Int) : Prop :=
  ∃ offset, s.call = some offset ∧ s.today - offset < d ∧ d < s.today

/-- A row comes before its day is exported, and not in the first second of a day. No writing is
interrupted after its first operation, and pruning does not reach the lookback. -/
def ExportState.Undisturbed (lookbackDays : Nat) (retentionDays : Int) (s : ExportState) :
    ExportAction → Prop
  | .insert r => Late r ∧ s.dir (dateNaive r.time) .jsonl = none ∧ ¬ s.Scanned (dateNaive r.time)
  | .begin today => PlainYear (today - lookbackDays) ∧ PlainYear today
  | .day fault => ∀ n m, fault.cut = some (n, m) → n = 0
  | .interrupt => True
  | .finish pruneDay _ => 0 < retentionDays → pruneDay - retentionDays ≤ s.today - lookbackDays

/-- What is true after every run. -/
structure ExportState.Sound (F : Formats) (lookbackDays : Nat) (s : ExportState) : Prop where
  rows : ∀ r ∈ s.table, Late r
  /-- Of the days that are still in the lookback, those that have a JSONL file are complete. -/
  files : ∀ d, s.today - lookbackDays ≤ d → (s.dir d .jsonl).isSome →
    Complete F s.table d (s.dir d)
  plain : ∀ offset, s.call = some offset →
    1 ≤ offset ∧ PlainYear (s.today - lookbackDays) ∧ PlainYear s.today
  scanned : ∀ d, s.Scanned d → dayRows s.table d ≠ [] → (s.dir d .jsonl).isSome

theorem dayRows_append_of_ne {r : UsageLogRow} (h : dateNaive r.time ≠ d) :
    dayRows (table ++ [r]) d = dayRows table d := by
  simp [dayRows, h]

theorem yearOfDay_between {e : Int} (hd : PlainYear (s.today - lookbackDays))
    (he : PlainYear s.today) (h₁ : s.today - lookbackDays ≤ e) (h₂ : e ≤ s.today) : PlainYear e :=
  ⟨hd.1.trans (yearOfDay_mono h₁), (yearOfDay_mono h₂).trans he.2⟩

/-- Pruning leaves the days of the lookback alone. -/
theorem prune_of_le {dir : Int → Files} {pruneDay : Int} {removed : Int → ExportFile → Bool}
    (h : 0 < retentionDays → pruneDay - retentionDays ≤ d) :
    prune dir retentionDays pruneDay removed d = dir d := by
  funext f
  refine if_neg fun ⟨hpos, hlt, _⟩ => ?_
  exact absurd (h hpos) (not_le.mpr hlt)

namespace ExportState

/-- Only the last day that a call has looked at is new. -/
theorem scanned_succ {offset : Nat} {dir : Int → Files} (hcall : s.call = some offset)
    (h : ({ s with dir, call := some (offset + 1) } : ExportState).Scanned d) :
    d = s.today - offset ∨ s.Scanned d := by
  obtain ⟨next, hnext, hlower, hupper⟩ := h
  obtain rfl : offset + 1 = next := Option.some.inj hnext
  by_cases heq : d = s.today - offset
  · exact .inl heq
  · exact .inr ⟨offset, hcall, by dsimp only at hlower; omega, hupper⟩

theorem Sound.stop (h : s.Sound F lookbackDays) :
    ({ s with call := none } : ExportState).Sound F lookbackDays :=
  ⟨h.rows, h.files, fun _ hcall => (nomatch hcall), fun _ ⟨_, hcall, _⟩ => nomatch hcall⟩

theorem cutAt_writeDay_zero (F : Formats) (d : Int) (rows : List UsageLogRow) (m : Nat) :
    cutAt (writeDay F d rows) 0 m = [] := rfl

/-- A day that needs no file, or whose file is there, is done. -/
theorem Sound.skip (h : s.Sound F lookbackDays) {offset : Nat} (hcall : s.call = some offset)
    (hdone : dayRows s.table (s.today - offset) ≠ [] →
      (s.dir (s.today - offset) .jsonl).isSome) :
    ({ s with call := some (offset + 1) } : ExportState).Sound F lookbackDays where
  rows := h.rows
  files := h.files
  plain next hnext := by
    obtain rfl : offset + 1 = next := Option.some.inj hnext
    exact ⟨Nat.le_add_left 1 offset, (h.plain offset hcall).2⟩
  scanned d hd := by
    rcases scanned_succ hcall hd with rfl | hold
    · exact hdone
    · exact h.scanned d hold

/-- A day that is written has its files. -/
theorem Sound.write (h : s.Sound F lookbackDays) {offset : Nat} (hcall : s.call = some offset)
    {files : Files} (hfiles : Complete F s.table (s.today - offset) files) :
    ({ s with
        dir := Function.update s.dir (s.today - offset) files
        call := some (offset + 1) } : ExportState).Sound F lookbackDays where
  rows := h.rows
  files d hd hsome := by
    dsimp only at hsome ⊢
    by_cases hday : d = s.today - offset
    · subst hday
      rwa [Function.update_self]
    · rw [Function.update_of_ne hday] at hsome ⊢
      exact h.files d hd hsome
  plain next hnext := by
    obtain rfl : offset + 1 = next := Option.some.inj hnext
    exact ⟨Nat.le_add_left 1 offset, (h.plain offset hcall).2⟩
  scanned d hd hrows := by
    dsimp only at hrows ⊢
    by_cases hday : d = s.today - offset
    · subst hday
      obtain ⟨rows, -, hholds⟩ := hfiles
      rw [Function.update_self, hholds .jsonl]
      rfl
    · rw [Function.update_of_ne hday]
      exact h.scanned d ((scanned_succ hcall hd).resolve_left hday) hrows

theorem Sound.exportDay (h : s.Sound F lookbackDays) {offset : Nat} {fault : DayFault}
    (hcall : s.call = some offset) (hoffset : offset ≤ lookbackDays)
    (hcut : ∀ n m, fault.cut = some (n, m) → n = 0) :
    (s.exportDay F offset fault).Sound F lookbackDays := by
  obtain ⟨hpos, hfirst, hlast⟩ := h.plain offset hcall
  have hperm := usageBetween_perm h.rows
    (yearOfDay_between hfirst hlast (e := s.today - offset) (by omega) (by omega))
    (yearOfDay_between hfirst hlast (e := s.today - offset + 1) (by omega) (by omega))
  unfold ExportState.exportDay
  dsimp only
  split_ifs with hexists hread hempty
  · exact h.skip hcall fun _ => hexists.2
  · exact h.stop
  · refine h.skip hcall fun hrows => absurd ?_ hrows
    rw [List.isEmpty_iff.mp hempty] at hperm
    exact hperm.nil_eq.symm
  · cases hc : fault.cut with
    | none => exact h.write hcall ⟨_, hperm, holds_writeDay F _ _ _⟩
    | some cut =>
      obtain ⟨n, m⟩ := cut
      obtain rfl := hcut n m hc
      simp only [cutAt_writeDay_zero, List.foldl_nil, Function.update_eq_self]
      exact h.stop

/-- A step that nothing disturbs keeps what is true. -/
theorem Sound.step (h : s.Sound F lookbackDays)
    (ha : s.Undisturbed lookbackDays retentionDays a)
    (hstep : s.act F lookbackDays retentionDays a = some s') : s'.Sound F lookbackDays := by
  cases a with
  | insert r =>
    obtain rfl := Option.some.inj hstep
    obtain ⟨hlate, hfile, hscanned⟩ := ha
    refine ⟨?_, ?_, h.plain, ?_⟩
    · rw [List.forall_mem_append, List.forall_mem_singleton]
      exact ⟨h.rows, hlate⟩
    · intro d hd hsome
      have hne : dateNaive r.time ≠ d := by
        rintro rfl
        rw [hfile] at hsome
        cases hsome
      rw [Complete, dayRows_append_of_ne hne]
      exact h.files d hd hsome
    · intro d hd
      have hne : dateNaive r.time ≠ d := by
        rintro rfl
        exact hscanned hd
      rw [dayRows_append_of_ne hne]
      exact h.scanned d hd
  | begin today =>
    simp only [ExportState.act] at hstep
    split_ifs at hstep with hnow
    obtain rfl := Option.some.inj hstep
    refine ⟨h.rows, fun d hd => h.files d (by dsimp only at hd; omega), ?_, ?_⟩
    · intro offset hoffset
      obtain rfl : 1 = offset := Option.some.inj hoffset
      exact ⟨le_rfl, ha⟩
    · rintro d ⟨offset, hoffset, hlower, hupper⟩
      obtain rfl : 1 = offset := Option.some.inj hoffset
      dsimp only at hlower hupper
      omega
  | day fault =>
    cases hcall : s.call with
    | none => simp [ExportState.act, hcall] at hstep
    | some offset =>
      simp only [ExportState.act, hcall] at hstep
      split_ifs at hstep with hoffset
      obtain rfl := Option.some.inj hstep
      exact h.exportDay hcall hoffset ha
  | interrupt =>
    obtain ⟨offset, -, rfl⟩ := Option.map_eq_some_iff.mp hstep
    exact h.stop
  | finish pruneDay removed =>
    cases hcall : s.call with
    | none => simp [ExportState.act, hcall] at hstep
    | some offset =>
      simp only [ExportState.act, hcall] at hstep
      split_ifs at hstep with hoffset
      obtain rfl := Option.some.inj hstep
      refine ⟨h.rows, ?_, fun _ hcall => (nomatch hcall), fun _ ⟨_, hcall, _⟩ => nomatch hcall⟩
      intro d hd
      dsimp only at hd ⊢
      rw [prune_of_le fun hpos => (ha hpos).trans hd]
      exact h.files d hd

end ExportState

def exampleFormats : Formats where
  jsonLine r := ("\x7b\"request_id\":\"" ++ r.requestId ++ "\"\x7d\n").toList
  csvLine fields := (String.intercalate "," fields ++ "\n").toList
  fixed6 _ := "0.000000"

def exampleRow (time : Int) : UsageLogRow where
  time
  requestId := "r1"
  keyName := none
  clientFormat := "openai"
  requestedModel := "m"
  effectiveModel := none
  routeName := none
  fallbackHops := 0
  status := "success"
  statusCode := 200
  latencyMs := none
  ttftMs := none
  inputTokens := none
  outputTokens := none
  cachedTokens := none
  cacheWriteTokens := none
  thinkingTokens := none
  costUsd := none
  costKnown := 0
  usageConfidence := "unknown"
  cacheStatus := "bypass"
  servingAccount := none
  servingProvider := none
  errorMessage := none

/-- A row of the first day of 1970, and a call on the second day. -/
def exampleCall (time : Int) : List ExportAction :=
  [.insert (exampleRow time), .begin 719469, .day {}]

end Kinetix.UsageLog
