import Ser2Ble.Library.Debounce

/-!
# The switches of `vendor/common/ys_switch.c`

`SW_MAX` is 1, so the table is one entry.  The callback is a parameter: a scan
reports which action it calls, and with which value.
-/

namespace Ser2Ble.YsSwitch

open Library

/-- `switch_sts_t`. -/
structure SwitchSts (Action : Type) where
  pin : UInt32
  actionCb : Option Action
  preValue : UInt8
  value : UInt8
  filter : UInt16

section Model

variable {Action : Type}

def swMax : Nat := 1

/-- `ys_switch_init`. -/
def ysSwitchInit : SwitchSts Action := ⟨0, none, 0, 0, 0⟩

/-- `ys_switch_register`, with what `gpio_read` returned after the pin was set up. -/
def ysSwitchRegister (entry : SwitchSts Action) (idx : UInt8) (pin : UInt32)
    (actionCb : Option Action) (gpioRead : UInt32) : SwitchSts Action × Int :=
  if swMax ≤ idx.toNat then (entry, 0)
  else
    let value : UInt8 := if gpioRead ≠ 0 then 1 else 0
    ({ pin := pin
       actionCb := actionCb
       preValue := value
       value := value
       filter := if value ≠ 0 then 0xFFFF else 0 }, 1)

/-- One turn of the loop of `ys_switch_scan`: the new entry, and the call of the action. -/
def ysSwitchScan (entry : SwitchSts Action) (gpioRead : UInt32) :
    SwitchSts Action × Option (Action × UInt8) :=
  if entry.pin = 0 then (entry, none)
  else
    let filter := ((entry.filter <<< 1) ||| (if 0 < gpioRead then 1 else 0)) &&& 0xFF
    let value := if filter = 0xFF then 1 else if filter = 0 then 0 else entry.value
    ({ entry with preValue := entry.value, filter := filter, value := value },
      if entry.value ^^^ value ≠ 0 then entry.actionCb.map fun action => (action, value) else none)

/-- The entry after successive scans. -/
def ysSwitchScans (entry : SwitchSts Action) : List UInt32 → SwitchSts Action
  | [] => entry
  | gpioRead :: rest => ysSwitchScans (ysSwitchScan entry gpioRead).1 rest

/-- The calls that successive scans make. -/
def ysSwitchCalls (entry : SwitchSts Action) : List UInt32 → List (Action × UInt8)
  | [] => []
  | gpioRead :: rest =>
      (ysSwitchScan entry gpioRead).2.toList ++ ysSwitchCalls (ysSwitchScan entry gpioRead).1 rest

end Model

/-- The level of the pin. -/
def high (gpioRead : UInt32) : Bool :=
  decide (gpioRead ≠ 0)

/-! ## The shift register -/

section Scan

variable {Action : Type} {entry : SwitchSts Action}

theorem ysSwitchScans_last (entry : SwitchSts Action) (levels : List UInt32) (level : UInt32) :
    ysSwitchScans entry (levels ++ [level]) = (ysSwitchScan (ysSwitchScans entry levels) level).1 := by
  induction levels generalizing entry with
  | nil => rfl
  | cons first rest ih => exact ih _

theorem ysSwitchCalls_last (entry : SwitchSts Action) (levels : List UInt32) (level : UInt32) :
    ysSwitchCalls entry (levels ++ [level]) =
      ysSwitchCalls entry levels ++ (ysSwitchScan (ysSwitchScans entry levels) level).2.toList := by
  induction levels generalizing entry with
  | nil =>
      change _ ++ [] = _
      rw [List.append_nil]
      rfl
  | cons first rest ih =>
      rw [List.cons_append, ysSwitchCalls, ysSwitchCalls, ih, List.append_assoc]
      rfl

theorem high_iff (gpioRead : UInt32) : high gpioRead = true ↔ 0 < gpioRead := by
  rw [high, decide_eq_true_iff]
  exact UInt32.pos_iff_ne_zero.symm

/-- A scan shifts the sample into the low byte of the filter. -/
theorem filter_scan (wired : entry.pin ≠ 0) (level : UInt32) :
    (ysSwitchScan entry level).1.filter.toNat =
      ((high level).toNat + 2 * entry.filter.toNat) % 2 ^ 8 := by
  have bit : (if 0 < level then 1 else 0 : UInt16).toNat = (high level).toNat := by
    by_cases up : 0 < level
    · rw [if_pos up, (high_iff level).mpr up]
      rfl
    · rw [if_neg up, Bool.eq_false_iff.mpr fun raised => up ((high_iff level).mp raised)]
      rfl
  have small := (high level).toNat_le
  rw [ysSwitchScan, if_neg wired]
  change (((entry.filter <<< 1) ||| (if 0 < level then 1 else 0)) &&& 0xFF).toNat = _
  rw [UInt16.toNat_and, UInt16.toNat_or, bit, UInt16.toNat_shiftLeft]
  change ((entry.filter.toNat <<< 1 % 2 ^ 16) ||| (high level).toNat) &&& (2 ^ 8 - 1) = _
  rw [Nat.and_two_pow_sub_one_eq_mod, Nat.or_mod_two_pow, Nat.mod_mod_of_dvd _ (by decide),
    ← Nat.or_mod_two_pow, ← Nat.shiftLeft_add_eq_or_of_lt (by omega), Nat.shiftLeft_eq]
  congr 1
  omega

end Scan

/-! ## The debounced value -/

/-- The entry after samples, the newest first, for a pin that was at `initial` when registered. -/
structure Debounced {Action : Type} (action : Action) (initial : Bool) (samples : List Bool)
    (entry : SwitchSts Action) : Prop where
  wired : entry.pin ≠ 0
  action : entry.actionCb = some action
  value : entry.value = (Debounce.value 8 initial samples).toUInt8
  filter : entry.filter.toNat % 2 ^ 8 = Debounce.packed (Debounce.recent 8 initial samples)

theorem packed_recent (initial : Bool) (samples : List Bool) :
    Debounce.packed (Debounce.recent 8 initial samples) =
      Debounce.packed (samples ++ List.replicate 8 initial) % 2 ^ 8 :=
  Debounce.packed_take _ 8

theorem recent_length (initial : Bool) (samples : List Bool) :
    (Debounce.recent 8 initial samples).length = 8 := by
  rw [Debounce.recent, List.length_take, List.length_append, List.length_replicate]
  omega

theorem newest_recent (initial sample : Bool) (older : List Bool) :
    sample ∈ Debounce.recent 8 initial (sample :: older) :=
  List.mem_cons_self

section Registered

variable {Action : Type} {action : Action} {initial : Bool} {samples : List Bool}
  {entry : SwitchSts Action}

theorem registered_debounced (entry : SwitchSts Action) {pin : UInt32} (wired : pin ≠ 0)
    (action : Action) (level : UInt32) :
    Debounced action (high level) [] (ysSwitchRegister entry 0 pin (some action) level).1 := by
  by_cases up : level = 0
  · subst up
    exact ⟨wired, rfl, rfl, rfl⟩
  · have raised : high level = true := decide_eq_true up
    rw [raised, ysSwitchRegister, if_neg (by decide), if_pos up]
    refine ⟨wired, rfl, rfl, ?_⟩
    change (0xFFFF : UInt16).toNat % 2 ^ 8 = _
    decide

/-- The low byte after one more scan. -/
theorem Debounced.filter_next (debounced : Debounced action initial samples entry)
    (level : UInt32) :
    (ysSwitchScan entry level).1.filter.toNat =
      Debounce.packed (Debounce.recent 8 initial (high level :: samples)) := by
  have old := debounced.filter
  rw [packed_recent] at old
  rw [filter_scan debounced.wired, packed_recent, List.cons_append, Debounce.packed]
  omega

theorem Debounced.ones_iff (debounced : Debounced action initial samples entry) (level : UInt32) :
    (ysSwitchScan entry level).1.filter = 0xFF ↔
      ∀ other ∈ Debounce.recent 8 initial (high level :: samples), other = true := by
  rw [← Debounce.packed_eq_ones_iff, recent_length, ← debounced.filter_next level,
    ← UInt16.toNat_inj]
  rfl

theorem Debounced.zero_iff (debounced : Debounced action initial samples entry) (level : UInt32) :
    (ysSwitchScan entry level).1.filter = 0 ↔
      ∀ other ∈ Debounce.recent 8 initial (high level :: samples), other = false := by
  rw [← Debounce.packed_eq_zero_iff, ← debounced.filter_next level, ← UInt16.toNat_inj]
  rfl

theorem Debounced.value_next (debounced : Debounced action initial samples entry)
    (level : UInt32) :
    (ysSwitchScan entry level).1.value =
      (Debounce.value 8 initial (high level :: samples)).toUInt8 := by
  have shown : (ysSwitchScan entry level).1.value =
      if (ysSwitchScan entry level).1.filter = 0xFF then 1
      else if (ysSwitchScan entry level).1.filter = 0 then 0 else entry.value := by
    rw [ysSwitchScan, if_neg debounced.wired]
  have ones := debounced.ones_iff level
  have zero := debounced.zero_iff level
  have own := newest_recent initial (high level) samples
  rw [shown, debounced.value]
  cases sample : high level with
  | true =>
      rw [sample] at ones zero own
      have nonzero : (ysSwitchScan entry level).1.filter ≠ 0 :=
        fun cleared => absurd (zero.mp cleared true own) (by decide)
      rw [if_neg nonzero, Debounce.value]
      by_cases steady : ∀ other ∈ Debounce.recent 8 initial (true :: samples), other = true
      · rw [if_pos (ones.mpr steady), if_pos steady]
        rfl
      · rw [if_neg fun filled => steady (ones.mp filled), if_neg steady]
  | false =>
      rw [sample] at ones zero own
      have unfilled : (ysSwitchScan entry level).1.filter ≠ 0xFF :=
        fun filled => absurd (ones.mp filled false own) (by decide)
      rw [if_neg unfilled, Debounce.value]
      by_cases steady : ∀ other ∈ Debounce.recent 8 initial (false :: samples), other = false
      · rw [if_pos (zero.mpr steady), if_pos steady]
        rfl
      · rw [if_neg fun cleared => steady (zero.mp cleared), if_neg steady]

theorem Debounced.scan (debounced : Debounced action initial samples entry) (level : UInt32) :
    Debounced action initial (high level :: samples) (ysSwitchScan entry level).1 := by
  have value := debounced.value_next level
  have filter := debounced.filter_next level
  have kept : (ysSwitchScan entry level).1.pin = entry.pin ∧
      (ysSwitchScan entry level).1.actionCb = entry.actionCb := by
    rw [ysSwitchScan, if_neg debounced.wired]
    exact ⟨rfl, rfl⟩
  refine ⟨?_, kept.2.trans debounced.action, value, ?_⟩
  · rw [kept.1]
    exact debounced.wired
  · rw [filter, packed_recent, Nat.mod_mod]

/-- The action is called exactly when the debounced value changes, with the new value. -/
theorem Debounced.call (debounced : Debounced action initial samples entry) (level : UInt32) :
    (ysSwitchScan entry level).2 =
      if Debounce.value 8 initial (high level :: samples) ≠ Debounce.value 8 initial samples then
        some (action, (Debounce.value 8 initial (high level :: samples)).toUInt8)
      else none := by
  have shown : (ysSwitchScan entry level).2 =
      if entry.value ^^^ (ysSwitchScan entry level).1.value ≠ 0 then
        entry.actionCb.map fun action => (action, (ysSwitchScan entry level).1.value)
      else none := by
    rw [ysSwitchScan, if_neg debounced.wired]
  rw [shown, debounced.value_next, debounced.value, debounced.action]
  cases Debounce.value 8 initial samples <;>
    cases Debounce.value 8 initial (high level :: samples) <;> rfl

theorem toUInt8_inj {first second : Bool} : first.toUInt8 = second.toUInt8 ↔ first = second := by
  cases first <;> cases second <;> decide

/-- The same, seen on the entry itself. -/
theorem Debounced.called (debounced : Debounced action initial samples entry) (level : UInt32) :
    (ysSwitchScan entry level).2 =
      if (ysSwitchScan entry level).1.value = entry.value then none
      else some (action, (ysSwitchScan entry level).1.value) := by
  rw [debounced.call, debounced.value_next, debounced.value]
  by_cases same : Debounce.value 8 initial (high level :: samples) =
      Debounce.value 8 initial samples
  · rw [if_neg (not_not_intro same), if_pos (toUInt8_inj.mpr same)]
  · rw [if_pos same, if_neg fun equal => same (toUInt8_inj.mp equal)]

/-- The action is called where eight samples in a row first differ from the value. -/
theorem Debounced.call_iff (debounced : Debounced action initial samples entry) (level : UInt32) :
    (ysSwitchScan entry level).2 =
      if (∀ other ∈ Debounce.recent 8 initial (high level :: samples), other = high level) ∧
          Debounce.value 8 initial samples ≠ high level then
        some (action, (high level).toUInt8)
      else none := by
  rw [debounced.call]
  by_cases changed : Debounce.value 8 initial (high level :: samples) ≠
      Debounce.value 8 initial samples
  · have steady := Debounce.value_ne_iff.mp changed
    rw [if_pos changed, if_pos steady, Debounce.value_steady steady.1]
  · rw [if_neg changed, if_neg fun steady => changed (Debounce.value_ne_iff.mpr steady)]

/-- The samples of successive scans, the newest first. -/
def newestFirst (levels : List UInt32) : List Bool :=
  (levels.map high).reverse

theorem newestFirst_append (levels more : List UInt32) :
    newestFirst (levels ++ more) = newestFirst more ++ newestFirst levels := by
  rw [newestFirst, List.map_append, List.reverse_append, newestFirst, newestFirst]

theorem Debounced.scans (debounced : Debounced action initial [] entry) (levels : List UInt32) :
    Debounced action initial (newestFirst levels) (ysSwitchScans entry levels) ∧
      ysSwitchCalls entry levels = (Debounce.changes 8 initial (newestFirst levels)).reverse.map
        fun value => (action, value.toUInt8) := by
  induction levels using List.reverseRecOn with
  | nil => exact ⟨debounced, rfl⟩
  | append_singleton levels level ih =>
      obtain ⟨before, calls⟩ := ih
      have grown : newestFirst (levels ++ [level]) = high level :: newestFirst levels :=
        newestFirst_append levels [level]
      rw [grown, ysSwitchScans_last, ysSwitchCalls_last]
      refine ⟨before.scan level, ?_⟩
      rw [calls, before.call, Debounce.changes]
      by_cases same : Debounce.value 8 initial (high level :: newestFirst levels) =
          Debounce.value 8 initial (newestFirst levels)
      · rw [if_neg (not_not_intro same), if_pos same, Option.toList_none, List.append_nil]
      · rw [if_pos same, if_neg same, Option.toList_some, List.reverse_cons, List.map_append,
          List.map_singleton]

/-- Successive scans of a registered switch compute the debounced value and call its changes. -/
structure DebouncesExactly {Action : Type} (action : Action) (initial : Bool)
    (registered : SwitchSts Action) (levels : List UInt32) : Prop where
  value : (ysSwitchScans registered levels).value =
    (Debounce.value 8 initial (newestFirst levels)).toUInt8
  call : ∀ next, (ysSwitchScan (ysSwitchScans registered levels) next).2 =
    if (∀ other ∈ Debounce.recent 8 initial (high next :: newestFirst levels), other = high next) ∧
        Debounce.value 8 initial (newestFirst levels) ≠ high next then
      some (action, (high next).toUInt8)
    else none
  alternate : (ysSwitchCalls registered levels).IsChain fun call next => call.2 ≠ next.2
  first : ∀ call, (ysSwitchCalls registered levels).head? = some call →
    call = (action, (!initial).toUInt8)
  undisturbed : ∀ disturbed restored : List UInt32, disturbed.length < 8 →
    Debounce.newest initial (newestFirst levels) =
      Debounce.value 8 initial (newestFirst levels) →
    (∀ level ∈ restored, high level = Debounce.value 8 initial (newestFirst levels)) →
    ysSwitchCalls registered (levels ++ disturbed ++ restored) = ysSwitchCalls registered levels

theorem Debounced.exactly (debounced : Debounced action initial [] entry) (levels : List UInt32) :
    DebouncesExactly action initial entry levels := by
  obtain ⟨after, calls⟩ := debounced.scans levels
  refine ⟨after.value, after.call_iff, ?_, ?_, ?_⟩
  · rw [calls, List.isChain_map, List.isChain_reverse]
    refine (Debounce.changes_alternate 8 initial _).imp fun value next different same => ?_
    cases value <;> cases next
    · exact different rfl
    · cases same
    · cases same
    · exact different rfl
  · intro call head
    rw [calls, List.head?_map, List.head?_reverse, Option.map_eq_some_iff] at head
    obtain ⟨oldest, last, rfl⟩ := head
    rw [Debounce.changes_oldest 8 initial _ last]
  · intro disturbed restored short settled restores
    have shortened : (newestFirst disturbed).length < 8 := by
      rwa [newestFirst, List.length_reverse, List.length_map]
    obtain ⟨still, quiet⟩ := Debounce.value_disturbed shortened settled rfl
    have back : ∀ sample ∈ newestFirst restored,
        sample = Debounce.value 8 initial (newestFirst levels) := by
      intro sample member
      obtain ⟨level, among, rfl⟩ := List.mem_map.mp (List.mem_reverse.mp member)
      exact restores level among
    obtain ⟨_, silent⟩ := Debounce.value_restored back still
    rw [(debounced.scans _).2, newestFirst_append, newestFirst_append, silent, quiet, calls]

end Registered

/-- From registration on, for every sequence of pin levels, the switch is debounced exactly. -/
theorem debounce_exact {Action : Type} (entry : SwitchSts Action) {pin : UInt32} (wired : pin ≠ 0)
    (action : Action) (level : UInt32) (levels : List UInt32) :
    DebouncesExactly action (high level) (ysSwitchRegister entry 0 pin (some action) level).1
      levels :=
  (registered_debounced entry wired action level).exactly levels

/-- `SW_CFG_PIN` is `GPIO_PD5`. -/
def swCfgPin : UInt32 := 0x320

theorem debounce_exact_pressed :
    DebouncesExactly () true (ysSwitchRegister ysSwitchInit 0 swCfgPin (some ()) 0x20).1
      (List.replicate 8 0) ∧
    ysSwitchCalls (ysSwitchRegister ysSwitchInit 0 swCfgPin (some ()) 0x20).1
      (List.replicate 8 0) = [((), 0)] :=
  ⟨debounce_exact ysSwitchInit (by decide) () 0x20 (List.replicate 8 0), by decide⟩

end Ser2Ble.YsSwitch
