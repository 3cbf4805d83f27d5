import Mathlib.Algebra.Order.BigOperators.Group.List
import Mathlib.Data.List.Induction
import Mathlib.Data.List.Nodup
import RydTrip.Replay.Records

/-!
# When the replay script ends

The script counts the messages it is handed and resolves its promise when the
count has reached the sum of the high watermarks.  The count is compared only
at the end of the handler, which an empty or an unparseable record does not
reach, and the watermarks also count the offsets that retention has emptied.

Messages are delivered at least once and in the order of each partition
(`Run.Delivers`), and the partitions interleave in any way.  Messages that
arrive after the start may be delivered too.  If the handler rejects, its
message is delivered again, and nothing behind it is.  So a partition is
delivered as far as it ever will be once a message of it has been handed over
that the handler always rejects: a `null`, one that kafkajs or the broker do not
take, or one whose log line cannot be printed.
-/

namespace RydTrip

namespace ReplayDlq

open Process (Fault)
open Json (Value)

/-! ## What a message comes to -/

section Handler

variable (takes : Sent → Except String Unit) (dryRun : Bool) (fault : Fault)

/-- The promise of the handler is resolved.  It makes no difference what has been
counted before (`eachMessage_isOk`). -/
def resolves (value : Option String) : Bool :=
  (eachMessage takes dryRun 0 fault value .start).1.isOk

/-- The handler comes to its end on a record that is not `null`: what it sends is
taken, and its line can be printed. -/
def Closes (record : Value) : Prop :=
  match (record.get (jsString "envelope")).filter Value.truthy with
  | none => Prints (skippedLine record)
  | some envelope =>
      if dryRun then Prints (dryRunLine record envelope)
      else takes (republished record envelope) = .ok () ∧ fault = .none ∧
        Prints (replayedLine record envelope)

/-- The handler does not reject the message: it is empty, or unparseable, or a
record for which `eachMessage` comes to its end. -/
def Passes (value : Option String) : Prop :=
  ∀ raw record, truthy value = some raw → Json.parse raw.toList = some record →
    record ≠ .null ∧ Closes takes dryRun fault record

/-- The handler gets behind its early returns: the value is neither empty nor
unparseable nor `null`. -/
def Completes (value : Option String) : Prop :=
  ∃ raw record, truthy value = some raw ∧ Json.parse raw.toList = some record ∧ record ≠ .null

end Handler

/-! ## Topics -/

/-- A partition when the script starts: the watermarks, and the values of the
messages between them that are still there. -/
structure Partition where
  low : ℕ
  high : ℕ
  records : List (Option String)
  low_le : low ≤ high
  records_le : records.length ≤ high - low

/-- Every offset of the partition still has its message. -/
def Partition.Kept (partition : Partition) : Prop :=
  partition.low = 0 ∧ partition.records.length = partition.high

/-- One call of the handler: the message by its place in its partition, and the
outcome of the send. -/
structure Delivery where
  partition : ℕ
  index : ℕ
  fault : Fault
  deriving DecidableEq

/-- A run of the script: the sends that kafkajs and the broker take, the argument,
the topic, and the messages that arrive after the start. -/
structure Run where
  takes : Sent → Except String Unit
  dryRun : Bool
  content : List Partition
  later : ℕ → ℕ → Option String

namespace Run

variable (r : Run)

/-- The messages of a partition that are there when the script starts. -/
def recordsAt (p : ℕ) : List (Option String) := (r.content[p]?.map Partition.records).getD []

/-- The value of a message. -/
def valueOf (p i : ℕ) : Option String := (r.recordsAt p)[i]?.getD (r.later p i)

/-- `offsets.reduce((sum, o) => sum + Number(o.high), 0)`. -/
def highWatermark : ℕ := (r.content.map Partition.high).sum

/-- The totals after some deliveries. -/
def totals (ds : List Delivery) : Totals :=
  ds.foldl (fun w d => (eachMessage r.takes r.dryRun r.highWatermark d.fault
    (r.valueOf d.partition d.index) w).2) .start

/-- `main` gets past its await: it returns before it if all offsets are zero. -/
def Finishes (ds : List Delivery) : Prop :=
  r.highWatermark = 0 ∨ (r.totals ds).resolved = true

/-- The handler has resolved for the message. -/
def Settled (ds : List Delivery) (p i : ℕ) : Prop :=
  ∃ fault, ⟨p, i, fault⟩ ∈ ds ∧ resolves r.takes r.dryRun fault (r.valueOf p i) = true

/-- The message has been handed over, and the handler always rejects it. -/
def Stuck (ds : List Delivery) (p i : ℕ) : Prop :=
  (∃ fault, ⟨p, i, fault⟩ ∈ ds) ∧
    ∀ fault, resolves r.takes r.dryRun fault (r.valueOf p i) = false

/-- A message is delivered when all before it in its partition are settled. -/
def InOrder (ds : List Delivery) : Prop :=
  ∀ before d after, ds = before ++ d :: after → ∀ i < d.index, r.Settled before d.partition i

/-- Every message that was there when the script started is settled. -/
def AllSettled (ds : List Delivery) : Prop :=
  ∀ p i, i < (r.recordsAt p).length → r.Settled ds p i

/-- Every message that was there when the script started is settled, or is never
delivered because its partition is stuck. -/
def Exhausted (ds : List Delivery) : Prop :=
  ∀ p i, i < (r.recordsAt p).length → r.Settled ds p i ∨ ∃ j ≤ i, r.Stuck ds p j

/-- The deliveries of a run, once everything that can be delivered has been. -/
structure Delivers (ds : List Delivery) : Prop where
  inOrder : r.InOrder ds
  exhausted : r.Exhausted ds

end Run

/-! ## One delivery -/

section Handler

variable {takes : Sent → Except String Unit} {dryRun : Bool} {hw : ℕ} {fault : Fault}
  {value : Option String} {record : Value} {w counted : Totals}

theorem finish_seen (w : Totals) (hw : ℕ) : (w.finish hw).seen = w.seen := by
  unfold Totals.finish
  split
  · rfl
  · rfl

theorem finish_resolved (w : Totals) (hw : ℕ) :
    (w.finish hw).resolved = true ↔ w.resolved = true ∨ hw ≤ w.seen := by
  unfold Totals.finish
  split
  · next h => exact iff_of_true rfl (.inr h)
  · next h => exact (or_iff_left h).symm

/-- The totals `w` after a handler that gets behind its early returns: the count
is compared if it resolves. -/
structure Compares (hw : ℕ) (w : Totals) (result : Except String Unit × Totals) : Prop where
  seen : result.2.seen = w.seen
  resolved : result.2.resolved = true ↔
    w.resolved = true ∨ (result.1.isOk = true ∧ hw ≤ w.seen)

/-- A handler that rejects counts nothing. -/
theorem compares_error {message : String} (hseen : counted.seen = w.seen)
    (hresolved : counted.resolved = w.resolved) : Compares hw w (.error message, counted) where
  seen := hseen
  resolved := by
    rw [hresolved]
    exact (or_iff_left fun h => by cases h.1).symm

theorem compares_close {w₀ : Totals} (line : Except String Unit) (hseen : w.seen = w₀.seen)
    (hresolved : w.resolved = w₀.resolved) (hseen' : counted.seen = w.seen)
    (hresolved' : counted.resolved = w.resolved) :
    Compares hw w₀ (w.close hw line counted) := by
  cases line with
  | error message => exact compares_error hseen hresolved
  | ok done =>
      constructor
      · rw [← hseen, ← hseen']
        exact finish_seen counted hw
      · rw [← hseen, ← hresolved, ← hseen', ← hresolved']
        exact (finish_resolved counted hw).trans (or_congr_right (and_iff_right rfl).symm)

/-- A send is taken, or it is rejected and leaves the counters. -/
theorem send_cases (takes : Sent → Except String Unit) (fault : Fault) (sent : Sent) (w : Totals) :
    ∃ w' : Totals, w'.seen = w.seen ∧ w'.resolved = w.resolved ∧
      ((send takes fault sent w = (.ok (), w') ∧ takes sent = .ok () ∧ fault = .none) ∨
        ∃ message, send takes fault sent w = (.error message, w') ∧
          ¬ (takes sent = .ok () ∧ fault = .none)) := by
  unfold send
  cases takes sent with
  | error message => exact ⟨w, rfl, rfl, .inr ⟨message, rfl, fun h => by cases h.1⟩⟩
  | ok done =>
      let sent' : Totals := { w with sent := sent :: w.sent }
      cases fault with
      | none => exact ⟨sent', rfl, rfl, .inl ⟨rfl, rfl, rfl⟩⟩
      | refused message => exact ⟨w, rfl, rfl, .inr ⟨message, rfl, fun h => by cases h.2⟩⟩
      | lost message => exact ⟨sent', rfl, rfl, .inr ⟨message, rfl, fun h => by cases h.2⟩⟩

/-- Behind the parsing the handler resolves exactly if it comes to its end. -/
theorem replayRecord_spec (takes : Sent → Except String Unit) (dryRun : Bool) (hw : ℕ)
    (fault : Fault) (record : Value) (w : Totals) :
    Compares hw w (replayRecord takes dryRun hw fault record w) ∧
      ((replayRecord takes dryRun hw fault record w).1.isOk = true ↔
        Closes takes dryRun fault record) := by
  unfold replayRecord Closes
  cases (record.get (jsString "envelope")).filter Value.truthy with
  | none =>
      refine ⟨compares_close _ rfl rfl rfl rfl, ?_⟩
      dsimp only
      rw [Totals.close_isOk, log_isOk]
  | some envelope =>
      cases dryRun with
      | true =>
          refine ⟨compares_close _ rfl rfl rfl rfl, ?_⟩
          simp only [if_true]
          rw [Totals.close_isOk, log_isOk]
      | false =>
          obtain ⟨w', hseen, hresolved, ⟨heq, htakes, hfault⟩ | ⟨message, heq, hrejects⟩⟩ :=
            send_cases takes fault (republished record envelope) w
          · refine ⟨?_, ?_⟩
            · simp only [Bool.false_eq_true, if_false, heq]
              exact compares_close _ hseen hresolved rfl rfl
            · simp only [Bool.false_eq_true, if_false, heq]
              rw [Totals.close_isOk, log_isOk, and_iff_right htakes, and_iff_right hfault]
          · refine ⟨?_, ?_⟩
            · simp only [Bool.false_eq_true, if_false, heq]
              exact compares_error hseen hresolved
            · simp only [Bool.false_eq_true, if_false, heq]
              exact iff_of_false nofun fun h => hrejects ⟨h.1, h.2.1⟩

/-- On any other value the handler only counts, and it rejects a `null`. -/
theorem eachMessage_of_not_completes (h : ¬ Completes value) :
    (eachMessage takes dryRun hw fault value w).2.seen = w.seen + 1 ∧
      (eachMessage takes dryRun hw fault value w).2.resolved = w.resolved ∧
      ((eachMessage takes dryRun hw fault value w).1.isOk = true ↔
        Passes takes dryRun fault value) := by
  unfold eachMessage
  dsimp only
  cases hvalue : truthy value with
  | none =>
      refine ⟨rfl, rfl, iff_of_true rfl fun raw record hraw => ?_⟩
      rw [hvalue] at hraw
      cases hraw
  | some raw =>
      dsimp only
      cases hparse : Json.parse raw.toList with
      | none =>
          refine ⟨rfl, rfl, iff_of_true rfl fun raw' record hraw hrecord => ?_⟩
          rw [hvalue] at hraw
          cases hraw
          rw [hparse] at hrecord
          cases hrecord
      | some record =>
          by_cases hnull : record = .null
          · subst hnull
            exact ⟨rfl, rfl, iff_of_false nofun fun hpasses =>
              (hpasses raw .null hvalue hparse).1 rfl⟩
          · exact absurd ⟨raw, record, hvalue, hparse, hnull⟩ h

/-- The handler resolves exactly if it does not reject the message. -/
theorem eachMessage_passes (takes : Sent → Except String Unit) (dryRun : Bool) (hw : ℕ)
    (fault : Fault) (value : Option String) (w : Totals) :
    (eachMessage takes dryRun hw fault value w).1.isOk = true ↔
      Passes takes dryRun fault value := by
  by_cases h : Completes value
  · obtain ⟨raw, record, hvalue, hparse, hne⟩ := h
    rw [eachMessage_eq hvalue hparse hne, (replayRecord_spec ..).2]
    refine ⟨fun hcloses raw' record' hvalue' hparse' => ?_, fun hpasses =>
      (hpasses raw record hvalue hparse).2⟩
    rw [hvalue] at hvalue'
    cases hvalue'
    rw [hparse] at hparse'
    cases hparse'
    exact ⟨hne, hcloses⟩
  · exact (eachMessage_of_not_completes h).2.2

theorem resolves_iff {value : Option String} :
    resolves takes dryRun fault value = true ↔ Passes takes dryRun fault value :=
  eachMessage_passes takes dryRun 0 fault value .start

theorem eachMessage_isOk (takes : Sent → Except String Unit) (dryRun : Bool) (hw : ℕ)
    (fault : Fault) (value : Option String) (w : Totals) :
    (eachMessage takes dryRun hw fault value w).1.isOk = resolves takes dryRun fault value :=
  Bool.eq_iff_iff.mpr ((eachMessage_passes ..).trans resolves_iff.symm)

/-- A handler that rejects although the send goes well always rejects. -/
theorem not_resolves (h : resolves takes dryRun .none value = false) (fault : Fault) :
    resolves takes dryRun fault value = false := by
  rw [← Bool.not_eq_true, resolves_iff] at h ⊢
  refine fun hpasses => h ?_
  intro raw record hvalue hparse
  obtain ⟨hne, hcloses⟩ := hpasses raw record hvalue hparse
  refine ⟨hne, ?_⟩
  unfold Closes at hcloses ⊢
  cases hfilter : (record.get (jsString "envelope")).filter Value.truthy with
  | none =>
      rw [hfilter] at hcloses
      exact hcloses
  | some envelope =>
      rw [hfilter] at hcloses
      cases dryRun with
      | true => exact hcloses
      | false => exact ⟨hcloses.1, rfl, hcloses.2.2⟩

theorem eachMessage_seen (takes : Sent → Except String Unit) (dryRun : Bool) (hw : ℕ)
    (fault : Fault) (value : Option String) (w : Totals) :
    (eachMessage takes dryRun hw fault value w).2.seen = w.seen + 1 := by
  by_cases h : Completes value
  · obtain ⟨raw, record, hvalue, hparse, hne⟩ := h
    rw [eachMessage_eq hvalue hparse hne]
    exact (replayRecord_spec ..).1.seen
  · exact (eachMessage_of_not_completes h).1

/-- Exactly the values that complete can resolve the promise of the script, when
the handler resolves. -/
theorem eachMessage_resolved (takes : Sent → Except String Unit) (dryRun : Bool) (hw : ℕ)
    (fault : Fault) (value : Option String) (w : Totals) :
    (eachMessage takes dryRun hw fault value w).2.resolved = true ↔ w.resolved = true ∨
      (resolves takes dryRun fault value = true ∧ Completes value ∧ hw ≤ w.seen + 1) := by
  by_cases h : Completes value
  · rw [and_iff_right h, ← eachMessage_isOk takes dryRun hw fault value w]
    obtain ⟨raw, record, hvalue, hparse, hne⟩ := h
    rw [eachMessage_eq hvalue hparse hne]
    exact (replayRecord_spec ..).1.resolved
  · rw [(eachMessage_of_not_completes h).2.1]
    exact (or_iff_left fun hor => h hor.2.1).symm

end Handler

/-! ## Many deliveries -/

namespace Run

variable {r : Run} {ds : List Delivery}

theorem totals_concat (ds : List Delivery) (d : Delivery) :
    r.totals (ds ++ [d]) = (eachMessage r.takes r.dryRun r.highWatermark d.fault
      (r.valueOf d.partition d.index) (r.totals ds)).2 := by
  rw [totals, List.foldl_append]
  rfl

theorem totals_seen (ds : List Delivery) : (r.totals ds).seen = ds.length := by
  induction ds using List.reverseRecOn with
  | nil => rfl
  | append_singleton ds d ih =>
      rw [totals_concat, eachMessage_seen, ih, List.length_append, List.length_singleton]

/-- The promise is resolved by a delivery that completes, for which the handler
resolves, and that comes late enough. -/
theorem totals_resolved :
    (r.totals ds).resolved = true ↔ ∃ before d after, ds = before ++ d :: after ∧
      resolves r.takes r.dryRun d.fault (r.valueOf d.partition d.index) = true ∧
      Completes (r.valueOf d.partition d.index) ∧ r.highWatermark ≤ before.length + 1 := by
  induction ds using List.reverseRecOn with
  | nil => simp [totals, Totals.start]
  | append_singleton ds d ih =>
      rw [totals_concat, eachMessage_resolved, totals_seen, ih]
      constructor
      · rintro (⟨before, c, after, rfl, hcloses⟩ | hcloses)
        · exact ⟨before, c, after ++ [d], by simp, hcloses⟩
        · exact ⟨ds, d, [], rfl, hcloses⟩
      · rintro ⟨before, c, after, heq, hcloses⟩
        rcases List.eq_nil_or_concat after with rfl | ⟨init, last, rfl⟩
        · obtain ⟨rfl, hlast⟩ := List.append_inj' heq rfl
          cases hlast
          exact .inr hcloses
        · rw [List.concat_eq_append, ← List.cons_append, ← List.append_assoc] at heq
          obtain ⟨rfl, -⟩ := List.append_inj' heq rfl
          exact .inl ⟨before, c, init, rfl, hcloses⟩

theorem Settled.append_left {before : List Delivery} {p i : ℕ} (h : r.Settled before p i)
    (after : List Delivery) : r.Settled (before ++ after) p i := by
  obtain ⟨fault, hmem, hresolves⟩ := h
  exact ⟨fault, List.mem_append_left _ hmem, hresolves⟩

theorem Settled.append_right {after : List Delivery} {p i : ℕ} (h : r.Settled after p i)
    (before : List Delivery) : r.Settled (before ++ after) p i := by
  obtain ⟨fault, hmem, hresolves⟩ := h
  exact ⟨fault, List.mem_append_right _ hmem, hresolves⟩

/-! ## The messages of a topic -/

variable (r) in
/-- The places of the messages that are there when the script starts. -/
def present : List (ℕ × ℕ) :=
  (List.range r.content.length).flatMap fun p =>
    (List.range (r.recordsAt p).length).map (Prod.mk p)

theorem recordsAt_getElem {p : ℕ} {partition : Partition} (h : r.content[p]? = some partition) :
    r.recordsAt p = partition.records := by
  rw [recordsAt, h]
  rfl

theorem lt_of_recordsAt {p i : ℕ} (h : i < (r.recordsAt p).length) : p < r.content.length := by
  by_contra hp
  rw [recordsAt, List.getElem?_eq_none (by omega)] at h
  exact absurd h (Nat.not_lt_zero i)

theorem mem_present {p i : ℕ} : (p, i) ∈ r.present ↔ i < (r.recordsAt p).length := by
  simp only [present, List.mem_flatMap, List.mem_range, List.mem_map, Prod.mk.injEq]
  constructor
  · rintro ⟨q, -, j, hj, rfl, rfl⟩
    exact hj
  · intro h
    exact ⟨p, lt_of_recordsAt h, i, h, rfl, rfl⟩

theorem nodup_present : r.present.Nodup := by
  refine List.nodup_flatMap.mpr ⟨fun p _ => ?_, ?_⟩
  · exact List.nodup_range.map fun i j h => (Prod.mk.inj h).2
  · refine List.Pairwise.imp ?_ List.nodup_range
    intro p q hne x hx hy
    obtain ⟨i, -, rfl⟩ := List.mem_map.mp hx
    obtain ⟨j, -, heq⟩ := List.mem_map.mp hy
    exact hne (Prod.mk.inj heq).1.symm

theorem length_present :
    r.present.length = (r.content.map fun partition => partition.records.length).sum := by
  have hmap : (List.range r.content.length).map (fun p => (r.recordsAt p).length) =
      r.content.map fun partition => partition.records.length := by
    refine List.ext_getElem (by simp) fun p hp hp' => ?_
    rw [List.length_map] at hp'
    rw [List.getElem_map, List.getElem_map, List.getElem_range,
      recordsAt_getElem (List.getElem?_eq_getElem hp')]
  rw [present, List.length_flatMap, ← hmap]
  simp only [List.length_map, List.length_range]

theorem valueOf_present {p i : ℕ} (h : i < (r.recordsAt p).length) :
    r.valueOf p i = (r.recordsAt p)[i] := by
  rw [valueOf, List.getElem?_eq_getElem h, Option.getD_some]

end Run

/-- No partition has more messages than offsets. -/
theorem records_le_high (partition : Partition) : partition.records.length ≤ partition.high :=
  partition.records_le.trans (Nat.sub_le _ _)

theorem kept_iff (partition : Partition) :
    partition.Kept ↔ partition.high ≤ partition.records.length := by
  have hlow := partition.low_le
  have hle := partition.records_le
  unfold Partition.Kept
  omega

namespace Run

variable {r : Run} {ds : List Delivery}

theorem present_le_high (r : Run) : r.present.length ≤ r.highWatermark := by
  rw [length_present]
  exact List.sum_le_sum fun partition _ => records_le_high partition

/-- The messages are as many as the watermarks say exactly if none is lost. -/
theorem present_iff_kept (r : Run) :
    r.highWatermark ≤ r.present.length ↔ ∀ partition ∈ r.content, partition.Kept := by
  obtain ⟨takes, dryRun, content, later⟩ := r
  rw [length_present, highWatermark]
  dsimp only
  induction content with
  | nil => simp
  | cons partition content ih =>
      have hle := records_le_high partition
      have hrest := present_le_high ⟨takes, dryRun, content, later⟩
      rw [length_present, highWatermark] at hrest
      dsimp only at hrest
      rw [List.map_cons, List.map_cons, List.sum_cons, List.sum_cons, List.forall_mem_cons, ← ih,
        kept_iff]
      omega

/-! ## Runs that end -/

/-- All messages have been delivered, so there were at least as many
deliveries. -/
theorem present_le_length (h : r.AllSettled ds) : r.present.length ≤ ds.length := by
  have hsub : r.present ⊆ ds.map fun d => (d.partition, d.index) := by
    rintro ⟨p, i⟩ hmem
    obtain ⟨fault, hd, -⟩ := h p i (mem_present.mp hmem)
    exact List.mem_map.mpr ⟨_, hd, rfl⟩
  have hle := (List.subperm_of_subset nodup_present hsub).length_le
  rw [List.length_map] at hle
  exact hle

/-- Where the handler rejects no message for ever, all of them are settled. -/
theorem Exhausted.allSettled (h : r.Exhausted ds)
    (hpass : ∀ p i, i < (r.recordsAt p).length →
      resolves r.takes r.dryRun .none (r.valueOf p i) = true) : r.AllSettled ds := by
  intro p i hi
  rcases h p i hi with hsettled | ⟨j, hj, -, hrejects⟩
  · exact hsettled
  · have hresolves := hpass p j (by omega)
    rw [hrejects] at hresolves
    cases hresolves

theorem InOrder.of_concat {d : Delivery} (h : r.InOrder (ds ++ [d])) : r.InOrder ds := by
  intro before c after heq
  refine h before c (after ++ [d]) ?_
  rw [heq, List.append_assoc, List.cons_append]

theorem Settled.concat {d : Delivery} {p i : ℕ} (h : r.Settled (ds ++ [d]) p i)
    (hnot : ¬ r.Settled ds p i) : d.partition = p ∧ d.index = i ∧
      resolves r.takes r.dryRun d.fault (r.valueOf p i) = true := by
  obtain ⟨fault, hmem, hresolves⟩ := h
  rcases List.mem_append.mp hmem with hmem | hmem
  · exact absurd ⟨fault, hmem, hresolves⟩ hnot
  · obtain rfl := List.mem_singleton.mp hmem
    exact ⟨rfl, rfl, hresolves⟩

/-- The last message to be settled is the last of its partition. -/
theorem last_of_partition {d : Delivery} (horder : r.InOrder (ds ++ [d]))
    (hall : r.AllSettled (ds ++ [d])) {p i : ℕ} (hi : i < (r.recordsAt p).length)
    (hnot : ¬ r.Settled ds p i) : i + 1 = (r.recordsAt p).length := by
  by_contra hne
  obtain ⟨-, hindex, -⟩ := (hall p i hi).concat hnot
  have hnext : r.Settled ds p (i + 1) := by
    by_contra hnext
    have hindex' := ((hall p (i + 1) (by omega)).concat hnext).2.1
    omega
  obtain ⟨fault, hmem, -⟩ := hnext
  obtain ⟨before, after, rfl⟩ := List.append_of_mem hmem
  have hbefore := horder.of_concat before _ after rfl i (Nat.lt_succ_self i)
  exact hnot (hbefore.append_left _)

/-- If no message is lost, all are settled and the last one of every partition
completes, the run ends. -/
theorem resolved_of_kept (hkept : ∀ partition ∈ r.content, partition.Kept)
    (hlast : ∀ partition ∈ r.content, ∀ value ∈ partition.records.getLast?, Completes value)
    (hpos : r.highWatermark ≠ 0) (horder : r.InOrder ds) (hall : r.AllSettled ds) :
    (r.totals ds).resolved = true := by
  have hcount := (r.present_iff_kept).mpr hkept
  induction ds using List.reverseRecOn with
  | nil =>
      have hle := present_le_length hall
      rw [List.length_nil] at hle
      omega
  | append_singleton ds d ih =>
      rw [totals_concat, eachMessage_resolved]
      by_cases hbefore : r.AllSettled ds
      · exact .inl (ih horder.of_concat hbefore)
      · -- The last delivery is the first that settles some message.
        simp only [AllSettled, not_forall] at hbefore
        obtain ⟨p, i, hi, hnot⟩ := hbefore
        obtain ⟨rfl, rfl, hresolves⟩ := (hall p i hi).concat hnot
        have hend := last_of_partition horder hall hi hnot
        have hp := lt_of_recordsAt hi
        have hrecords := recordsAt_getElem (List.getElem?_eq_getElem hp)
        refine .inr ⟨hresolves, ?_, ?_⟩
        · rw [valueOf_present hi]
          refine hlast r.content[d.partition] (List.getElem_mem hp) _ ?_
          rw [← hrecords, List.getLast?_eq_getElem?, ← hend, Nat.add_sub_cancel]
          exact List.getElem?_eq_getElem hi
        · have hle := present_le_length hall
          rw [List.length_append, List.length_singleton] at hle
          rw [totals_seen]
          omega

/-! ## A run for every order of the partitions -/

/-- The handler rejects the message although the send goes well. -/
def rejects (r : Run) (value : Option String) : Bool := !resolves r.takes r.dryRun .none value

/-- How many messages of a partition are ever delivered: those up to the first
that the handler rejects. -/
def reach (r : Run) (p : ℕ) : ℕ :=
  min ((r.recordsAt p).findIdx r.rejects + 1) (r.recordsAt p).length

theorem reach_le (p : ℕ) : r.reach p ≤ (r.recordsAt p).length := Nat.min_le_right _ _

/-- Before the last of them the handler resolves. -/
theorem resolves_of_lt_reach {p i : ℕ} (h : i + 1 < r.reach p) :
    resolves r.takes r.dryRun .none (r.valueOf p i) = true := by
  have hle := r.reach_le p
  have hi : i < (r.recordsAt p).findIdx r.rejects := by
    unfold reach at h
    omega
  have hnot := List.not_of_lt_findIdx hi
  rw [valueOf_present (by omega)]
  rwa [rejects, Bool.not_eq_false'] at hnot

/-- If not all are delivered, the handler rejects the last of them. -/
theorem rejects_of_reach_lt {p : ℕ} (h : r.reach p < (r.recordsAt p).length) :
    ∃ i, r.reach p = i + 1 ∧ resolves r.takes r.dryRun .none (r.valueOf p i) = false := by
  have hlt : (r.recordsAt p).findIdx r.rejects < (r.recordsAt p).length := by
    unfold reach at h
    omega
  refine ⟨(r.recordsAt p).findIdx r.rejects, ?_, ?_⟩
  · unfold reach
    omega
  · have hrejects := List.findIdx_getElem (w := hlt)
    rw [valueOf_present hlt]
    rwa [rejects, Bool.not_eq_true'] at hrejects

variable (r) in
/-- The messages of a partition that are ever delivered, one after the other. -/
def block (p : ℕ) : List Delivery := (List.range (r.reach p)).map fun i => ⟨p, i, .none⟩

theorem mem_block {p : ℕ} {d : Delivery} :
    d ∈ r.block p ↔ ∃ i < r.reach p, d = ⟨p, i, .none⟩ := by
  simp only [block, List.mem_map, List.mem_range, eq_comm]

theorem block_inOrder (p : ℕ) : r.InOrder (r.block p) := by
  intro before d after heq i hi
  have hlength := congrArg List.length heq
  rw [block, List.length_map, List.length_range, List.length_append, List.length_cons] at hlength
  have hget (j : ℕ) (hj : j < before.length + 1) :
      (before ++ d :: after)[j]? = some ⟨p, j, .none⟩ := by
    rw [← heq, block, List.getElem?_map, List.getElem?_range (by omega)]
    rfl
  have hd : d = ⟨p, before.length, .none⟩ := by
    have hself := hget before.length (by omega)
    rw [List.getElem?_append_right (le_refl _), Nat.sub_self, List.getElem?_cons_zero] at hself
    exact Option.some.inj hself
  subst hd
  have hbefore := hget i (Nat.lt_succ_of_lt hi)
  rw [List.getElem?_append_left hi] at hbefore
  dsimp only at hi
  exact ⟨.none, List.mem_of_getElem? hbefore, resolves_of_lt_reach (p := p) (by omega)⟩

theorem InOrder.append {ds' : List Delivery} (h : r.InOrder ds) (h' : r.InOrder ds') :
    r.InOrder (ds ++ ds') := by
  intro before d after heq i hi
  rcases List.append_eq_append_iff.mp heq with ⟨middle, rfl, hrest⟩ | ⟨middle, hds, hrest⟩
  · exact (h' middle d after hrest i hi).append_right _
  · cases middle with
    | nil =>
        rw [List.append_nil] at hds
        obtain ⟨fault, hmem, -⟩ := h' [] d after hrest.symm i hi
        exact absurd hmem List.not_mem_nil
    | cons c middle =>
        obtain ⟨rfl, rfl⟩ := List.cons.inj hrest
        exact h before d middle hds i hi

theorem flatMap_inOrder (order : List ℕ) : r.InOrder (order.flatMap r.block) := by
  induction order with
  | nil =>
      intro before d after heq
      rw [List.flatMap_nil] at heq
      exact absurd heq (by simp)
  | cons p order ih =>
      rw [List.flatMap_cons]
      exact (block_inOrder p).append ih

/-- Where a partition is left, it is stuck. -/
theorem block_exhausted {p i : ℕ} (hi : i < (r.recordsAt p).length) (hblock : r.block p ⊆ ds) :
    r.Settled ds p i ∨ ∃ j ≤ i, r.Stuck ds p j := by
  by_cases hreach : i < r.reach p
  · have hmem : ⟨p, i, .none⟩ ∈ ds := hblock (mem_block.mpr ⟨i, hreach, rfl⟩)
    cases hresolves : resolves r.takes r.dryRun .none (r.valueOf p i) with
    | true => exact .inl ⟨.none, hmem, hresolves⟩
    | false => exact .inr ⟨i, le_refl i, ⟨.none, hmem⟩, not_resolves hresolves⟩
  · obtain ⟨j, hj, hrejects⟩ := rejects_of_reach_lt (r := r) (p := p) (by omega)
    have hmem : ⟨p, j, .none⟩ ∈ ds := hblock (mem_block.mpr ⟨j, by omega, rfl⟩)
    exact .inr ⟨j, by omega, ⟨.none, hmem⟩, not_resolves hrejects⟩

/-- The partitions one after the other, in any order. -/
theorem delivers_order (r : Run) {order : List ℕ}
    (horder : order.Perm (List.range r.content.length)) : r.Delivers (order.flatMap r.block) := by
  refine ⟨flatMap_inOrder order, fun p i hi => block_exhausted hi fun d hd => ?_⟩
  refine List.mem_flatMap.mpr ⟨p, ?_, hd⟩
  exact horder.mem_iff.mpr (List.mem_range.mpr (lt_of_recordsAt hi))

variable (r) in
/-- How many messages are ever delivered. -/
def reached : ℕ := ((List.range r.content.length).map r.reach).sum

theorem length_order {order : List ℕ} (horder : order.Perm (List.range r.content.length)) :
    (order.flatMap r.block).length = r.reached := by
  rw [(horder.flatMap_right r.block).length_eq, List.length_flatMap, reached]
  simp only [block, List.length_map, List.length_range]

theorem reached_le (r : Run) : r.reached ≤ r.present.length := by
  rw [reached, present, List.length_flatMap]
  refine List.sum_le_sum fun p _ => ?_
  rw [List.length_map, List.length_range]
  exact r.reach_le p

/-- If all messages are delivered some time, then those of each partition. -/
theorem reach_eq (h : r.present.length ≤ r.reached) {p : ℕ} (hp : p < r.content.length) :
    r.reach p = (r.recordsAt p).length := by
  rw [reached, present, List.length_flatMap] at h
  have hsum : ((List.range r.content.length).map r.reach).sum =
      ((List.range r.content.length).map fun p => (r.recordsAt p).length).sum := by
    refine le_antisymm (List.sum_le_sum fun p _ => r.reach_le p) ?_
    simpa only [List.length_map, List.length_range] using h
  by_contra hne
  refine absurd hsum (ne_of_lt (List.sum_lt_sum _ _ (fun p _ => r.reach_le p) ⟨p, ?_, ?_⟩))
  · exact List.mem_range.mpr hp
  · exact lt_of_le_of_ne (r.reach_le p) hne

section Necessary

variable (h : ∀ ds, r.Delivers ds → (r.totals ds).resolved = true)

include h

/-- If every run ends, no message is lost and no partition gets stuck before its
last message. -/
theorem high_le_reached : r.highWatermark ≤ r.reached := by
  obtain ⟨before, d, after, heq, -, -, hlate⟩ :=
    totals_resolved.mp (h _ (r.delivers_order (List.Perm.refl _)))
  have hlength := congrArg List.length heq
  rw [length_order (List.Perm.refl _), List.length_append, List.length_cons] at hlength
  omega

/-- If every run ends, the handler resolves for the last message of every
partition, and the message completes. -/
theorem last_resolves {p i : ℕ} (hi : i + 1 = (r.recordsAt p).length) :
    resolves r.takes r.dryRun .none (r.valueOf p i) = true ∧ Completes (r.valueOf p i) := by
  have hp : p ∈ List.range r.content.length :=
    List.mem_range.mpr (lt_of_recordsAt (i := i) (by omega))
  have horder : ((List.range r.content.length).erase p ++ [p]).Perm
      (List.range r.content.length) :=
    (List.perm_append_singleton p _).trans (List.perm_cons_erase hp).symm
  obtain ⟨before, d, after, heq, hresolves, hcompletes, hlate⟩ :=
    totals_resolved.mp (h _ (r.delivers_order horder))
  have hhigh := high_le_reached h
  have hpresent := r.present_le_high
  have hreached := r.reached_le
  -- Nothing comes after the delivery that resolves the promise.
  have hd : d = ⟨p, i, .none⟩ := by
    have hlength := congrArg List.length heq
    rw [length_order horder, List.length_append, List.length_cons] at hlength
    obtain rfl : after = [] := List.length_eq_zero_iff.mp (by omega)
    have hreach : r.reach p = i + 1 := by
      rw [hi]
      exact reach_eq (by omega) (List.mem_range.mp hp)
    rw [List.flatMap_append, List.flatMap_singleton, block, hreach, List.range_succ,
      List.map_append, ← List.append_assoc] at heq
    exact (List.cons.inj (List.append_inj' heq rfl).2).1.symm
  rw [hd] at hresolves hcompletes
  exact ⟨hresolves, hcompletes⟩

/-- If every run ends, the handler rejects no message for ever. -/
theorem all_resolve {p i : ℕ} (hi : i < (r.recordsAt p).length) :
    resolves r.takes r.dryRun .none (r.valueOf p i) = true := by
  by_cases hlast : i + 1 = (r.recordsAt p).length
  · exact (last_resolves h hlast).1
  · have hhigh := high_le_reached h
    have hpresent := r.present_le_high
    have hreach := reach_eq (r := r) (by omega) (lt_of_recordsAt hi)
    exact resolves_of_lt_reach (by omega)

end Necessary

/-- The script ends for every order of deliveries exactly if every offset below
the high watermarks still has its message, the handler rejects none of them for
ever, and the last message of every partition is neither empty nor unparseable
nor `null`. -/
theorem finishes_iff (r : Run) :
    (∀ ds, r.Delivers ds → r.Finishes ds) ↔
      ∀ partition ∈ r.content, partition.Kept ∧
        (∀ value ∈ partition.records, Passes r.takes r.dryRun .none value) ∧
        ∀ value ∈ partition.records.getLast?, Completes value := by
  by_cases hzero : r.highWatermark = 0
  · refine iff_of_true (fun ds _ => .inl hzero) fun partition hmem => ?_
    have hhigh : partition.high = 0 :=
      (List.sum_eq_zero_iff.mp hzero) _ (List.mem_map_of_mem hmem)
    have hle := records_le_high partition
    have hempty : partition.records = [] := List.length_eq_zero_iff.mp (by omega)
    refine ⟨(kept_iff partition).mpr (by omega), fun value hvalue => ?_, fun value hvalue => ?_⟩
    · rw [hempty] at hvalue
      cases hvalue
    · rw [hempty] at hvalue
      cases hvalue
  · constructor
    · intro h
      have hresolved : ∀ ds, r.Delivers ds → (r.totals ds).resolved = true :=
        fun ds hdelivers => (h ds hdelivers).resolve_left hzero
      have hhigh := high_le_reached hresolved
      have hreached := r.reached_le
      have hkept := r.present_iff_kept.mp (hhigh.trans hreached)
      intro partition hmem
      obtain ⟨p, hp⟩ := List.mem_iff_getElem?.mp hmem
      have hrecords := recordsAt_getElem hp
      refine ⟨hkept partition hmem, fun value hvalue => ?_, fun value hvalue => ?_⟩
      · rw [← hrecords] at hvalue
        obtain ⟨i, hi, rfl⟩ := List.mem_iff_getElem.mp hvalue
        rw [← valueOf_present hi, ← resolves_iff]
        exact all_resolve hresolved hi
      · rw [← hrecords, List.getLast?_eq_getElem?, Option.mem_def,
          List.getElem?_eq_some_iff] at hvalue
        obtain ⟨hi, rfl⟩ := hvalue
        rw [← valueOf_present hi]
        exact (last_resolves hresolved (by omega)).2
    · intro h ds hdelivers
      have hall : r.AllSettled ds := by
        refine hdelivers.exhausted.allSettled fun p i hi => ?_
        have hp := lt_of_recordsAt hi
        have hrecords := recordsAt_getElem (List.getElem?_eq_getElem hp)
        rw [resolves_iff, valueOf_present hi]
        refine (h _ (List.getElem_mem hp)).2.1 _ ?_
        rw [← hrecords]
        exact List.getElem_mem hi
      exact .inr (resolved_of_kept (fun partition hmem => (h partition hmem).1)
        (fun partition hmem => (h partition hmem).2.2) hzero hdelivers.inOrder hall)

end Run

/-- One message that is not JSON. -/
def unparseable : Partition := ⟨0, 1, [some "oops"], by decide, by decide⟩

/-- A topic with one unparseable message: it is delivered and settled, and the
script waits for ever. -/
theorem unparseable_not_finishes : ¬ ∀ (r : Run) (ds : List Delivery), r.highWatermark ≠ 0 →
    r.InOrder ds → r.AllSettled ds → (r.totals ds).resolved = true := by
  intro hall
  let r : Run := ⟨kafkajs, false, [unparseable], fun _ _ => none⟩
  have hdelivers : r.Delivers [⟨0, 0, .none⟩] := r.delivers_order (List.Perm.refl [0])
  have hresolved := hall r [⟨0, 0, .none⟩] (by decide) hdelivers.inOrder
    (hdelivers.exhausted.allSettled fun p i hi => ?_)
  · cases hresolved
  · cases p with
    | zero =>
        obtain rfl : i = 0 := Nat.lt_one_iff.mp hi
        rfl
    | succ p => exact absurd hi (Nat.not_lt_zero i)

end ReplayDlq

end RydTrip
