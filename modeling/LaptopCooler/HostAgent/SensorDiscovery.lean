import LaptopCooler.HostAgent.Heartbeat
import Mathlib.Data.List.Sort
import Mathlib.Data.Prod.Lex
import Mathlib.Data.String.Basic

/-! # The discovery of temperature sensors

The model of `discover_sensors` in `host-agent/src/main.rs`. A successful
discovery finds the temperature inputs listed for the supported devices, each of
them once and sorted by their paths, whatever order the directories are listed in
(`LaptopCooler.HostAgent.discoverSensors_eq_ok_iff`). It goes by their names and
reads none of them.
-/

namespace LaptopCooler.HostAgent

open Fallible

variable {IoError : Type}

/-! ## Names of inputs -/

/-- The text without its leading copies of the pattern. -/
def dropPrefixes (pattern text : List Char) : List Char :=
  if _proper : pattern ≠ [] ∧ pattern.isPrefixOf text then
    dropPrefixes pattern (text.drop pattern.length)
  else text
termination_by text.length
decreasing_by
  obtain ⟨nonempty, leads⟩ := _proper
  have fits := (List.isPrefixOf_iff_prefix.mp leads).length_le
  have positive := List.length_pos_of_ne_nil nonempty
  rw [List.length_drop]
  omega

/-- `trim_end_matches("_input")` -/
def trimInputSuffix (fileName : String) : String :=
  String.ofList (dropPrefixes "_input".toList.reverse fileName.toList.reverse).reverse

/-- A name that starts with `temp` and ends with `_input`. -/
def isTemperatureInput (fileName : String) : Bool :=
  "temp".toList.isPrefixOf fileName.toList && "_input".toList.isSuffixOf fileName.toList

def supportedHwmonNames : List String :=
  ["amdgpu", "coretemp", "i915", "k10temp", "nvidia", "nouveau", "zenpower"]

/-! ## Directories -/

/-- The name of a listed file, when it is text. -/
def listedName (file : Except IoError (Option String)) : Option String := file.toOption.join

/-- A directory below `/sys/class/hwmon`: its own name, and what reading its `name` file,
listing its files and reading its label files give. A file whose name is not text has none. -/
structure HwmonDirectory (IoError : Type) where
  fileName : String
  name : Except IoError String
  files : Except IoError (List (Except IoError (Option String)))
  read : String → Except IoError String
  distinct : ∀ listed, files = .ok listed → (listed.filterMap listedName).Nodup

/-- What listing `/sys/class/hwmon` gives. -/
structure HwmonRoot (IoError : Type) where
  entries : Except IoError (List (Except IoError (HwmonDirectory IoError)))
  distinct : ∀ listed, entries = .ok listed →
    (listed.filterMap fun entry => entry.toOption.map HwmonDirectory.fileName).Nodup

/-- A sensor found below `/sys/class/hwmon`. -/
structure DiscoveredSensor where
  device : String
  label : String
  directory : String
  file : String
  deriving DecidableEq

namespace DiscoveredSensor

/-- The sensor as the loop reads it. -/
def sensor (found : DiscoveredSensor) : Sensor :=
  ⟨"/sys/class/hwmon/" ++ found.directory ++ "/" ++ found.file⟩

/-- Paths are compared component by component, and below one root by the last two. -/
def components (found : DiscoveredSensor) : String ×ₗ String := toLex (found.directory, found.file)

end DiscoveredSensor

/-- The label of an input: its label file, or the stem of its name. -/
def HwmonDirectory.label (directory : HwmonDirectory IoError) (fileName : String) : String :=
  match directory.read (trimInputSuffix fileName ++ "_label") with
  | .ok label => Text.trim label
  | .error _ => trimInputSuffix fileName

/-- What one file of a supported device adds. -/
def HwmonDirectory.foundInput (directory : HwmonDirectory IoError) (name : String)
    (file : Except IoError (Option String)) : Except IoError (List DiscoveredSensor) := do
  match ← file with
  | none => return []
  | some fileName =>
      if ¬ isTemperatureInput fileName then return []
      return [⟨name, directory.label fileName, directory.fileName, fileName⟩]

/-- What one directory adds. -/
def foundSensors (entry : Except IoError (HwmonDirectory IoError)) :
    Except IoError (List DiscoveredSensor) := do
  let directory ← entry
  match directory.name with
  | .error _ => return []
  | .ok contents =>
      let name := Text.trim contents
      if name ∉ supportedHwmonNames then return []
      (← directory.files).foldlM (fun sensors file => do
        return sensors ++ (← directory.foundInput name file)) []

def discoverSensors (root : HwmonRoot IoError) : Except IoError (List DiscoveredSensor) := do
  let sensors ← (← root.entries).foldlM (fun sensors entry => do
    return sensors ++ (← foundSensors entry)) []
  return sensors.mergeSort fun left right => left.components ≤ right.components

/-! ## What is found -/

namespace HwmonDirectory

/-- The directory is one of a supported device. -/
def Supported (directory : HwmonDirectory IoError) (device : String) : Prop :=
  ∃ contents, directory.name = .ok contents ∧ device = Text.trim contents ∧
    device ∈ supportedHwmonNames

/-- The files of the directory are listed without an error. -/
def Lists (directory : HwmonDirectory IoError) (files : List (Option String)) : Prop :=
  directory.files = .ok (files.map .ok)

/-- The sensor is a temperature input of the directory. -/
def Offers (directory : HwmonDirectory IoError) (found : DiscoveredSensor) : Prop :=
  ∃ files, directory.Supported found.device ∧ directory.Lists files ∧ some found.file ∈ files ∧
    isTemperatureInput found.file = true ∧ found.directory = directory.fileName ∧
    found.label = directory.label found.file

variable {directory : HwmonDirectory IoError} {name : String}
  {file : Except IoError (Option String)} {found : DiscoveredSensor}

theorem exists_foundInput :
    (∃ piece, directory.foundInput name file = .ok piece) ↔ ∃ listed, file = .ok listed := by
  rcases file with error | _ | fileName
  · simp [foundInput]
  · simp [foundInput, pure, Except.pure]
  · by_cases isTemperatureInput fileName <;> simp_all [foundInput, pure, Except.pure]

theorem mem_foundInput :
    found ∈ orEmpty (directory.foundInput name file) ↔ file = .ok (some found.file) ∧
      isTemperatureInput found.file = true ∧
      found = ⟨name, directory.label found.file, directory.fileName, found.file⟩ := by
  rcases file with error | _ | fileName
  · simp [foundInput, orEmpty]
  · simp [foundInput, orEmpty, pure, Except.pure]
  · by_cases input : isTemperatureInput fileName = true
    · have one : directory.foundInput name (.ok (some fileName)) =
          .ok [⟨name, directory.label fileName, directory.fileName, fileName⟩] := by
        simp [foundInput, input, pure, Except.pure]
      rw [one, orEmpty_ok, List.mem_singleton, Except.ok.injEq, Option.some.injEq]
      constructor
      · intro same
        obtain rfl := same
        exact ⟨rfl, input, rfl⟩
      · rintro ⟨rfl, _, same⟩
        exact same
    · have none : directory.foundInput name (.ok (some fileName)) = .ok [] := by
        simp [foundInput, input, pure, Except.pure]
      rw [none, orEmpty_ok, Except.ok.injEq, Option.some.injEq]
      constructor
      · intro member
        exact (List.not_mem_nil member).elim
      · rintro ⟨rfl, actual, _⟩
        exact (input actual).elim

/-- A file gives one sensor at most. -/
theorem foundInput_distinct :
    (orEmpty (directory.foundInput name file)).Pairwise fun left right =>
      left.components ≠ right.components := by
  rcases file with error | _ | fileName
  · simp [foundInput, orEmpty]
  · simp [foundInput, orEmpty, pure, Except.pure]
  · by_cases isTemperatureInput fileName <;> simp_all [foundInput, orEmpty, pure, Except.pure]

/-- What a directory adds: the inputs among its files if it is a supported device's, else
nothing. -/
theorem foundSensors_eq_ok_iff {piece : List DiscoveredSensor} :
    foundSensors (.ok directory) = .ok piece ↔
      (∃ device files, directory.Supported device ∧ directory.Lists files ∧
        piece = files.flatMap fun file => orEmpty (directory.foundInput device (.ok file))) ∨
      (∀ device, ¬ directory.Supported device) ∧ piece = [] := by
  simp only [foundSensors, ok_bind]
  cases named : directory.name with
  | error error =>
      simp only [Supported, named, reduceCtorEq, false_and, exists_false, not_false_eq_true,
        implies_true, true_and, false_or, pure, Except.pure, Except.ok.injEq, @eq_comm _ piece]
  | ok contents =>
      by_cases supported : Text.trim contents ∈ supportedHwmonNames
      · have only : ∀ device, directory.Supported device ↔ device = Text.trim contents := by
          intro device
          simp only [Supported, named, Except.ok.injEq, exists_eq_left']
          exact ⟨And.left, fun same => ⟨same, same ▸ supported⟩⟩
        simp only [supported, not_true_eq_false, if_false, only, bind_eq_ok_iff,
          foldlM_append_eq_ok_iff, exists_foundInput, forall_ok_iff, List.nil_append]
        constructor
        · rintro ⟨listed, lists, ⟨files, rfl⟩, rfl⟩
          exact Or.inl ⟨_, files, rfl, lists, List.flatMap_map ..⟩
        · rintro (⟨device, files, rfl, lists, rfl⟩ | ⟨unsupported, _⟩)
          · exact ⟨_, lists, ⟨files, rfl⟩, by rw [List.flatMap_map]⟩
          · exact (unsupported _ rfl).elim
      · have never : ∀ device, ¬ directory.Supported device := by
          rintro device ⟨_, same, rfl, member⟩
          obtain rfl := Except.ok.inj (named.symm.trans same)
          exact supported member
        simp only [supported, not_false_eq_true, if_true, never, false_and, exists_false,
          implies_true, true_and, false_or, pure, Except.pure, Except.ok.injEq, @eq_comm _ piece]

/-- The files of the directory can be listed if it is a supported device's. -/
def Readable (directory : HwmonDirectory IoError) : Prop :=
  ∀ device, directory.Supported device → ∃ files, directory.Lists files

theorem exists_foundSensors : (∃ piece, foundSensors (.ok directory) = .ok piece) ↔
    directory.Readable := by
  simp only [foundSensors_eq_ok_iff, Readable]
  constructor
  · rintro ⟨_, ⟨_, files, _, lists, _⟩ | ⟨unsupported, _⟩⟩ device supported
    · exact ⟨files, lists⟩
    · exact (unsupported device supported).elim
  · intro readable
    by_cases supported : ∃ device, directory.Supported device
    · obtain ⟨device, supported⟩ := supported
      obtain ⟨files, lists⟩ := readable device supported
      exact ⟨_, Or.inl ⟨device, files, supported, lists, rfl⟩⟩
    · exact ⟨[], Or.inr ⟨not_exists.mp supported, rfl⟩⟩

theorem mem_foundSensors : found ∈ orEmpty (foundSensors (.ok directory)) ↔
    directory.Offers found := by
  constructor
  · intro member
    cases gathered : foundSensors (.ok directory) with
    | error error =>
        rw [gathered] at member
        exact (List.not_mem_nil member).elim
    | ok piece =>
        rw [gathered, orEmpty_ok] at member
        rcases foundSensors_eq_ok_iff.mp gathered with
          ⟨device, files, supported, lists, rfl⟩ | ⟨_, rfl⟩
        · obtain ⟨file, listed, here⟩ := List.mem_flatMap.mp member
          obtain ⟨same, input, shaped⟩ := mem_foundInput.mp here
          obtain rfl := Except.ok.inj same
          have ofDevice : found.device = device := congrArg DiscoveredSensor.device shaped
          exact ⟨files, ofDevice ▸ supported, lists, listed, input,
            congrArg DiscoveredSensor.directory shaped, congrArg DiscoveredSensor.label shaped⟩
        · exact (List.not_mem_nil member).elim
  · rintro ⟨files, supported, lists, listed, input, inside, labelled⟩
    rw [foundSensors_eq_ok_iff.mpr (Or.inl ⟨_, files, supported, lists, rfl⟩), orEmpty_ok,
      List.mem_flatMap]
    refine ⟨_, listed, mem_foundInput.mpr ⟨rfl, input, ?_⟩⟩
    rw [← inside, ← labelled]

/-- A directory gives no two sensors at one path. -/
theorem foundSensors_distinct :
    (orEmpty (foundSensors (.ok directory))).Pairwise fun left right =>
      left.components ≠ right.components := by
  cases gathered : foundSensors (.ok directory) with
  | error error => exact List.Pairwise.nil
  | ok piece =>
      rcases foundSensors_eq_ok_iff.mp gathered with
        ⟨device, files, _, lists, rfl⟩ | ⟨_, rfl⟩
      · have names := directory.distinct _ lists
        rw [List.Nodup, List.pairwise_filterMap, List.pairwise_map] at names
        refine List.pairwise_flatMap.mpr ⟨fun file _ => foundInput_distinct, names.imp ?_⟩
        intro first second differ left inFirst right inSecond same
        obtain ⟨fromFirst, _⟩ := mem_foundInput.mp inFirst
        obtain ⟨fromSecond, _⟩ := mem_foundInput.mp inSecond
        refine differ left.file ?_ right.file ?_ (congrArg (fun path => (ofLex path).2) same)
        · rw [fromFirst]
          rfl
        · rw [fromSecond]
          rfl
      · exact List.Pairwise.nil

end HwmonDirectory

/-- Sorting by a key that is not repeated gives the one list of the same elements in which the
keys increase. -/
theorem eq_mergeSort_iff {α β : Type} [LinearOrder β] {key : α → β} {elements sorted : List α}
    (distinct : elements.Pairwise fun left right => key left ≠ key right) :
    sorted = elements.mergeSort (fun left right => key left ≤ key right) ↔
      (sorted.Pairwise fun left right => key left < key right) ∧
        ∀ element, element ∈ sorted ↔ element ∈ elements := by
  have ordered : (elements.mergeSort fun left right => key left ≤ key right).Pairwise
      fun left right => key left < key right := by
    have weakly := @List.pairwise_mergeSort _ (fun left right => decide (key left ≤ key right))
      (fun _ _ _ => by simpa using le_trans) (fun _ _ => by simpa using le_total _ _) elements
    have differ := distinct.perm
      (List.mergeSort_perm elements fun left right => key left ≤ key right).symm
      fun unequal => unequal.symm
    refine (weakly.and differ).imp ?_
    intro left right both
    exact lt_of_le_of_ne (of_decide_eq_true both.1) both.2
  have : Std.Irrefl fun left right : α => key left < key right := ⟨fun _ => lt_irrefl _⟩
  have : Std.Antisymm fun left right : α => key left < key right :=
    ⟨fun _ _ before after => (lt_asymm before after).elim⟩
  constructor
  · rintro rfl
    exact ⟨ordered, fun element => List.mem_mergeSort⟩
  · rintro ⟨increasing, same⟩
    exact increasing.eq_of_mem_iff ordered fun element =>
      (same element).trans List.mem_mergeSort.symm

/-- Two directories give no two sensors at one path. -/
theorem HwmonRoot.distinct_sensors {root : HwmonRoot IoError}
    {directories : List (HwmonDirectory IoError)}
    (listed : root.entries = .ok (directories.map .ok)) :
    (directories.flatMap fun directory => orEmpty (foundSensors (.ok directory))).Pairwise
      fun left right => left.components ≠ right.components := by
  have names := root.distinct _ listed
  rw [List.Nodup, List.pairwise_filterMap, List.pairwise_map] at names
  refine List.pairwise_flatMap.mpr
    ⟨fun directory _ => HwmonDirectory.foundSensors_distinct, names.imp ?_⟩
  intro first second differ left inFirst right inSecond same
  obtain ⟨_, _, _, _, _, ofFirst, _⟩ := HwmonDirectory.mem_foundSensors.mp inFirst
  obtain ⟨_, _, _, _, _, ofSecond, _⟩ := HwmonDirectory.mem_foundSensors.mp inSecond
  refine differ left.directory ?_ right.directory ?_
    (congrArg (fun path => (ofLex path).1) same)
  · rw [ofFirst]
    rfl
  · rw [ofSecond]
    rfl

/-- **What discovery finds.** It succeeds if every entry of `/sys/class/hwmon` can be read and
the files of every supported device can be listed. It finds the temperature inputs listed for the
supported devices, readable or not, each of them once and sorted by their paths. -/
theorem discoverSensors_eq_ok_iff {root : HwmonRoot IoError} {sensors : List DiscoveredSensor} :
    discoverSensors root = .ok sensors ↔ ∃ directories : List (HwmonDirectory IoError),
      root.entries = .ok (directories.map .ok) ∧
      (∀ directory ∈ directories, directory.Readable) ∧
      (sensors.Pairwise fun left right => left.components < right.components) ∧
      ∀ found, found ∈ sensors ↔ ∃ directory ∈ directories, directory.Offers found := by
  -- Once every entry is known to be a directory, the loop is a plain concatenation.
  have loop : discoverSensors root = .ok sensors ↔ ∃ directories : List (HwmonDirectory IoError),
      root.entries = .ok (directories.map .ok) ∧
      (∀ directory ∈ directories, directory.Readable) ∧
      sensors = (directories.flatMap fun directory => orEmpty (foundSensors (.ok directory))
        ).mergeSort fun left right => left.components ≤ right.components := by
    simp only [discoverSensors, bind_eq_ok_iff, foldlM_append_eq_ok_iff, List.nil_append]
    constructor
    · rintro ⟨entries, listed, _, ⟨succeed, rfl⟩, sorted⟩
      obtain rfl := Except.ok.inj sorted
      have readable : ∀ entry ∈ entries, ∃ directory, entry = .ok directory := by
        intro entry member
        obtain ⟨piece, found⟩ := succeed entry member
        cases entry with
        | error error => cases found
        | ok directory => exact ⟨directory, rfl⟩
      obtain ⟨directories, rfl⟩ := forall_ok_iff.mp readable
      refine ⟨directories, listed, ?_, ?_⟩
      · intro directory member
        exact HwmonDirectory.exists_foundSensors.mp (succeed _ (List.mem_map_of_mem member))
      · rw [List.flatMap_map]
    · rintro ⟨directories, listed, readable, rfl⟩
      refine ⟨directories.map .ok, listed, _, ⟨?_, rfl⟩, ?_⟩
      · intro entry member
        obtain ⟨directory, present, rfl⟩ := List.mem_map.mp member
        exact HwmonDirectory.exists_foundSensors.mpr (readable directory present)
      · rw [List.flatMap_map]
        rfl
  rw [loop]
  refine exists_congr fun directories => and_congr_right fun listed => and_congr_right fun _ => ?_
  rw [eq_mergeSort_iff (root.distinct_sensors listed)]
  simp only [List.mem_flatMap, HwmonDirectory.mem_foundSensors]

end LaptopCooler.HostAgent
