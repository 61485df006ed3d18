import Attestation.EventLog.Window
import Attestation.Proofs.EventLog.Progress

/-!
# Which windows there are

* `Granted total start count` : the window may be asked for in a log of `total` events;
* `positions` : the positions of the events that it asks for, and `Holds log w positions` : it holds them, in order;
* `window_of_granted`, `window_of_not_granted` : these windows are cut, and no others;
* `windowInWords` : the window as a machine with 64-bit words cuts it, with a sum that is checked and a slice that may
  not reach out of the events; `windowInWords_eq` says that nothing goes wrong there;
* `window_exact` : all of it, with the law of paging and the events that no run reaches.
-/

namespace Attestation.EventLog

variable {log w : EventLog} {start count : Nat}

/-! ## Runs of a list -/

/-- A run of a list holds what stands at the positions of the run. -/
theorem map_some_take_drop {α : Type} {xs : List α} (h : start + count ≤ xs.length) :
    ((xs.drop start).take count).map some = (List.range' start count).map fun i => xs[i]? := by
  apply List.ext_getElem?
  intro i
  rw [List.getElem?_map, List.getElem?_map, List.getElem?_take, List.getElem?_drop]
  by_cases hi : i < count
  · have hin : start + i < xs.length := by omega
    rw [if_pos hi, List.getElem?_range' hi, Nat.one_mul, List.getElem?_eq_getElem hin]
    simp
  · rw [if_neg hi, List.getElem?_eq_none (by simpa using hi)]
    rfl

/-- The items from position `first` on up to before position `last`, if these are positions of the list. -/
def slice? {α : Type} (xs : List α) (first last : Nat) : Option (List α) :=
  if first ≤ last ∧ last ≤ xs.length then some ((xs.take last).drop first) else none

theorem slice?_run {α : Type} {xs : List α} (h : start + count ≤ xs.length) :
    slice? xs start (start + count) = some ((xs.drop start).take count) := by
  rw [slice?, if_pos ⟨Nat.le_add_right _ _, h⟩, List.drop_take, Nat.add_sub_cancel_left]

/-! ## Windows -/

/-- A window that may be asked for: the whole log, with a start up to its end, or a run that ends before the last
event. -/
def Granted (total start count : Nat) : Prop := if count = 0 then start ≤ total else start + count < total

instance (total start count : Nat) : Decidable (Granted total start count) :=
  inferInstanceAs (Decidable (if count = 0 then _ else _))

theorem granted_whole_iff {total : Nat} : Granted total start 0 ↔ start ≤ total := by
  rw [Granted, if_pos rfl]

theorem granted_run_iff {total : Nat} (h0 : 0 < count) : Granted total start count ↔ start + count < total := by
  rw [Granted, if_neg (Nat.ne_of_gt h0)]

/-- The positions of the events that a window asks for. -/
def positions (log : EventLog) (start count : Nat) : List Nat :=
  if count = 0 then List.range log.events.length else List.range' start count

/-- A window holds the events of the log at these positions, in this order. -/
structure Holds (log w : EventLog) (positions : List Nat) : Prop where
  header : w.header = log.header
  events : w.events.map some = positions.map fun i => log.events[i]?

theorem window_whole (h : start ≤ log.events.length) : log.window start 0 = .ok log := by
  rw [window, if_pos rfl, if_pos h]

theorem window_run (h0 : 0 < count) (h : start + count < log.events.length) :
    log.window start count = .ok { log with events := (log.events.drop start).take count } := by
  rw [window, if_neg (Nat.ne_of_gt h0), if_pos h]

theorem window_of_not_granted (h : ¬ Granted log.events.length start count) :
    log.window start count = .error (.windowOutOfRange start count log.events.length) := by
  unfold Granted at h
  rw [window]
  split at h
  · next h0 => rw [if_pos h0, if_neg h]
  · next h0 => rw [if_neg h0, if_neg h]

theorem window_of_granted (h : Granted log.events.length start count) :
    ∃ w, log.window start count = .ok w ∧ Holds log w (log.positions start count) := by
  unfold Granted at h
  unfold positions
  split at h
  · next h0 =>
    subst h0
    refine ⟨log, window_whole h, rfl, ?_⟩
    have hfits : 0 + log.events.length ≤ log.events.length := Nat.le_of_eq (Nat.zero_add _)
    have hall := map_some_take_drop hfits
    rwa [List.drop_zero, List.take_length, ← List.range_eq_range'] at hall
  · next h0 =>
    refine ⟨_, window_run (Nat.pos_of_ne_zero h0) h, rfl, ?_⟩
    rw [if_neg h0]
    exact map_some_take_drop (Nat.le_of_lt h)

theorem granted_of_window (h : log.window start count = .ok w) : Granted log.events.length start count := by
  by_contra hc
  rw [window_of_not_granted hc] at h
  cases h

theorem holds_of_window (h : log.window start count = .ok w) : Holds log w (log.positions start count) := by
  obtain ⟨v, hv, hholds⟩ := window_of_granted (granted_of_window h)
  rw [h] at hv
  cases hv
  exact hholds

theorem fault_of_window {fault : Fault} (h : log.window start count = .error fault) :
    fault = .windowOutOfRange start count log.events.length := by
  by_cases hgranted : Granted log.events.length start count
  · obtain ⟨w, hw, -⟩ := window_of_granted hgranted
    rw [h] at hw
    cases hw
  · rw [window_of_not_granted hgranted] at h
    cases h
    rfl

theorem exists_window_iff : (∃ w, log.window start count = .ok w) ↔ Granted log.events.length start count := by
  constructor
  · rintro ⟨w, hw⟩
    exact granted_of_window hw
  · intro h
    obtain ⟨w, hw, -⟩ := window_of_granted h
    exact ⟨w, hw⟩

/-- **Paging.** Two runs one after the other make up the run of both. -/
theorem window_append {a b : Nat} (ha : 0 < a) (hb : 0 < b) (h : log.window start (a + b) = .ok w) :
    ∃ u v, log.window start a = .ok u ∧ log.window (start + a) b = .ok v ∧
      w = { log with events := u.events ++ v.events } := by
  have hab : start + (a + b) < log.events.length := (granted_run_iff (Nat.add_pos_left ha b)).1 (granted_of_window h)
  rw [window_run (Nat.add_pos_left ha b) hab] at h
  cases h
  refine ⟨_, _, window_run ha (by omega), window_run hb (by omega), ?_⟩
  rw [List.take_add, List.drop_drop]

/-! ## Reaching an event -/

/-- The window is cut, and the event at position `i` is among those that it asks for. -/
def Reaches (log : EventLog) (start count i : Nat) : Prop :=
  (∃ w, log.window start count = .ok w) ∧ i ∈ log.positions start count

theorem reaches_run_iff {i : Nat} (h0 : 0 < count) :
    Reaches log start count i ↔ start + count < log.events.length ∧ start ≤ i ∧ i < start + count := by
  rw [Reaches, exists_window_iff, granted_run_iff h0, positions, if_neg (Nat.ne_of_gt h0), List.mem_range'_1]

/-- The runs together reach every event but the last. -/
theorem exists_reaches_run_iff {i : Nat} :
    (∃ start count, 0 < count ∧ Reaches log start count i) ↔ i + 1 < log.events.length := by
  constructor
  · rintro ⟨start, count, h0, h⟩
    obtain ⟨hlt, -, hi⟩ := (reaches_run_iff h0).1 h
    omega
  · intro h
    exact ⟨i, 1, Nat.one_pos, (reaches_run_iff Nat.one_pos).2 ⟨h, Nat.le_refl i, Nat.lt_succ_self i⟩⟩

theorem reaches_whole {i : Nat} (h : i < log.events.length) : Reaches log 0 0 i :=
  ⟨⟨log, window_whole (Nat.zero_le _)⟩, List.mem_range.2 h⟩

/-! ## Words -/

/-- The sum of two words, if it fits into one. -/
def checkedSum (a b : UInt64) : Option UInt64 := if a ≤ a + b then some (a + b) else none

theorem checkedSum_eq_some_iff {a b c : UInt64} : checkedSum a b = some c ↔ a.toNat + b.toNat = c.toNat := by
  have ha := a.toNat_lt
  have hb := b.toNat_lt
  have hc := c.toNat_lt
  have hsum := UInt64.toNat_add a b
  have hle : a ≤ a + b ↔ a.toNat + b.toNat < 2 ^ 64 := by
    rw [UInt64.le_iff_toNat_le, hsum]
    omega
  unfold checkedSum
  split
  · next h =>
    rw [Option.some_inj, ← UInt64.toNat_inj, hsum, Nat.mod_eq_of_lt (hle.1 h)]
  · next h =>
    have hwraps := mt hle.2 h
    constructor
    · exact fun hnone => nomatch hnone
    · omega

/-- The window as it is cut with words. There is no value where the slice would reach out of the events. -/
def windowInWords (log : EventLog) (start count : UInt64) : Option (Except Fault EventLog) :=
  let total := log.events.length
  let refusal := Except.error (.windowOutOfRange start.toNat count.toNat total)
  if count = 0 then some (if total < start.toNat then refusal else .ok log)
  else
    match (checkedSum start count).filter fun last => last.toNat < total with
    | none => some refusal
    | some last => (slice? log.events start.toNat last.toNat).map fun events => .ok { log with events }

/-- **No sum wraps and no slice reaches out of the events**, so with words the same windows are cut. -/
theorem windowInWords_eq (h : log.events.length ≤ UInt64.size) (start count : UInt64) :
    log.windowInWords start count = some (log.window start.toNat count.toNat) := by
  unfold windowInWords
  by_cases h0 : count = 0
  · subst h0
    have hzero : (0 : UInt64).toNat = 0 := rfl
    simp only [if_true, hzero]
    by_cases hle : start.toNat ≤ log.events.length
    · rw [if_neg (Nat.not_lt.2 hle), window_whole hle]
    · rw [if_pos (Nat.not_le.1 hle), window_of_not_granted (mt granted_whole_iff.1 hle)]
  · have hpos : 0 < count.toNat := Nat.pos_of_ne_zero fun hc => h0 (UInt64.toNat_inj.1 hc)
    simp only [if_neg h0]
    by_cases hlt : start.toNat + count.toNat < log.events.length
    · have hlast : (UInt64.ofNat (start.toNat + count.toNat)).toNat = start.toNat + count.toNat :=
        UInt64.toNat_ofNat_of_lt' (Nat.lt_of_lt_of_le hlt h)
      have hsum := checkedSum_eq_some_iff.2 hlast.symm
      have hslice := slice?_run (Nat.le_of_lt hlt)
      simp only [hsum, Option.filter_some, hlast, hlt, decide_true, if_true, hslice, Option.map_some,
        window_run hpos hlt]
    · have hnone : ((checkedSum start count).filter fun last => last.toNat < log.events.length) = none := by
        rw [Option.filter_eq_none_iff]
        intro last hlast
        rw [← checkedSum_eq_some_iff.1 hlast]
        simpa using hlt
      rw [hnone, window_of_not_granted (mt (granted_run_iff hpos).1 hlt)]

/-- Every event takes some bytes. -/
theorem length_events_le {bs : Bytes} (hd : decode bs = .ok log) : log.events.length ≤ bs.length := by
  obtain ⟨h, es, tail, -, -, -, rfl, rfl⟩ := exists_layout_of_decode hd
  have hevents : es.length ≤ (es.flatMap EventLayout.bytes).length := by
    have hsome : ∀ n ∈ es.map fun e => e.bytes.length, 1 ≤ n := by
      intro n hn
      obtain ⟨e, -, rfl⟩ := List.mem_map.1 hn
      have hlength := e.length_bytes
      rw [minEvent] at hlength
      omega
    have hsum := List.length_le_sum_of_one_le _ hsome
    rwa [List.length_map, ← List.length_flatMap] at hsum
  rw [ofLayout, layOut, List.length_map, List.length_append, List.length_append]
  omega

/-! ## All windows -/

/-- **Which windows there are.** A run of events is cut if it ends before the last event of the log, and then holds
exactly these events in their order; the whole log is cut from any start that is not beyond its end. Every other window
is refused with its numbers. A run is cut in two anywhere, the runs together reach every event but the last, and the
last is reached with the whole log only. With words of 64 bits the same windows are cut of every log that was decoded
from so few bytes: no sum wraps, and no slice reaches out of the events. -/
theorem window_exact (log : EventLog) :
    (∀ start count, 0 < count →
      ((∃ w, log.window start count = .ok w) ↔ start + count < log.events.length) ∧
      ∀ w, log.window start count = .ok w → Holds log w (List.range' start count)) ∧
    (∀ start,
      ((∃ w, log.window start 0 = .ok w) ↔ start ≤ log.events.length) ∧
      ∀ w, log.window start 0 = .ok w → Holds log w (List.range log.events.length)) ∧
    (∀ start count fault, log.window start count = .error fault →
      fault = .windowOutOfRange start count log.events.length) ∧
    (∀ start a b w, 0 < a → 0 < b → log.window start (a + b) = .ok w →
      ∃ u v, log.window start a = .ok u ∧ log.window (start + a) b = .ok v ∧
        w = { log with events := u.events ++ v.events }) ∧
    (∀ i, (∃ start count, 0 < count ∧ Reaches log start count i) ↔ i + 1 < log.events.length) ∧
    (∀ i, i + 1 = log.events.length → Reaches log 0 0 i ∧ ∀ start count, Reaches log start count i → count = 0) ∧
    ∀ bs, decode bs = .ok log → bs.length ≤ UInt64.size → ∀ start count : UInt64,
      log.windowInWords start count = some (log.window start.toNat count.toNat) := by
  refine ⟨fun start count h0 => ⟨?_, ?_⟩, fun start => ⟨?_, ?_⟩, ?_, ?_, ?_, ?_, ?_⟩
  · rw [exists_window_iff, granted_run_iff h0]
  · intro w hw
    have hholds := holds_of_window hw
    rwa [positions, if_neg (Nat.ne_of_gt h0)] at hholds
  · rw [exists_window_iff, granted_whole_iff]
  · intro w hw
    exact holds_of_window hw
  · exact fun start count fault => fault_of_window
  · intro start a b w ha hb h
    exact window_append ha hb h
  · exact fun i => exists_reaches_run_iff
  · intro i hi
    refine ⟨reaches_whole (by omega), fun start count h => ?_⟩
    by_contra hc
    have hlt := exists_reaches_run_iff.1 ⟨start, count, Nat.pos_of_ne_zero hc, h⟩
    omega
  · intro bs hd hbs
    exact windowInWords_eq (Nat.le_trans (length_events_le hd) hbs)

/-- Four events, of which three can be cut. -/
theorem window_exact_sample :
    let log := { sampleLog with events := sampleLog.events ++ sampleLog.events }
    (∃ u v, log.window 0 1 = .ok u ∧ log.window 1 2 = .ok v ∧ u.events ++ v.events = log.events.take 3) ∧
      log.window 1 3 = .error (.windowOutOfRange 1 3 4) ∧ Holds log log (List.range 4) ∧
      (∀ start count, Reaches log start count 3 → count = 0) ∧
      sampleLog.windowInWords 1 0xFFFFFFFFFFFFFFFF = some (sampleLog.window 1 0xFFFFFFFFFFFFFFFF) := by
  intro log
  obtain ⟨hrun, hwhole, hfault, hpaging, -, hlast, -⟩ := window_exact log
  obtain ⟨-, -, -, -, -, -, hwords⟩ := window_exact sampleLog
  obtain ⟨w, hw⟩ := (hrun 0 3 (by decide)).1.2 (by decide)
  obtain ⟨u, v, hu, hv, rfl⟩ := hpaging 0 1 2 w (by decide) (by decide) hw
  have htaken : log.window 0 3 = .ok { log with events := log.events.take 3 } := rfl
  rw [htaken] at hw
  refine ⟨⟨u, v, hu, hv, (congrArg EventLog.events (Except.ok.inj hw)).symm⟩, ?_, ?_, (hlast 3 (by decide)).2, ?_⟩
  · cases hrefused : log.window 1 3 with
    | ok other => exact absurd ((hrun 1 3 (by decide)).1.1 ⟨other, hrefused⟩) (by decide)
    | error fault => rw [hfault 1 3 fault hrefused]; rfl
  · exact (hwhole 0).2 log rfl
  · exact hwords _ decode_sampleBytes (by decide +kernel) 1 0xFFFFFFFFFFFFFFFF

end Attestation.EventLog
