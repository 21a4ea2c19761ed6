import TwinVoice.Edge.Features
import TwinVoice.Pdm.Features

/-! # Windows of the stream and of the table

The edge scores a window whenever the buffer of an asset is due, the trainer
all the windows that `build_features` cuts from a table of the same samples.
They are the same windows, as long as a stride is no longer than a window. With
a longer one the edge counts the samples of a whole stride before its first
window, where the table has its first window at row 0. -/

namespace TwinVoice.Edge

open TwinVoice.Lib TwinVoice.Pdm
open TwinVoice.Sim (Double)

namespace RollingWindow

/-- A sample, with the windows that were due so far. -/
def collect (spec : FeatureSpec) (s : RollingWindow × List (List (Instant × FrameRow))) (x : Sample) :
    RollingWindow × List (List (Instant × FrameRow)) :=
  let r := s.1.add spec x
  (r.1, if r.2 = true then s.2 ++ [r.1.rows] else s.2)

def collects (spec : FeatureSpec) (samples : List Sample) : RollingWindow × List (List (Instant × FrameRow)) :=
  samples.foldl (collect spec) (empty, [])

/-- The windows that the edge emits. -/
def emissions (spec : FeatureSpec) (samples : List Sample) : List (List (Instant × FrameRow)) :=
  (collects spec samples).2

end RollingWindow

/-- The sample has a reading of every sensor. -/
def Sample.Carries (spec : FeatureSpec) (x : Sample) : Prop := ∀ name ∈ spec.sensorCols, (x.metrics name).isSome = true

/-- The row of a sample in the table. -/
def Sample.row (spec : FeatureSpec) (x : Sample) : Instant × FrameRow :=
  (x.time, fun name => if name ∈ spec.sensorCols then (x.metrics name).getD (.finite 0) else .finite 0)

/-- The table of the samples is cut into the windows that the edge emits. -/
def WindowsAgree (spec : FeatureSpec) (samples : List Sample) : Prop :=
  cutWindows (samples.map (Sample.row spec)) spec.windowSize spec.stride = some (RollingWindow.emissions spec samples)

/-- Too few samples for a window, or a stride that is no longer than one. -/
def StrideFits (spec : FeatureSpec) (n : Nat) : Prop :=
  n < spec.windowSize ∨ (spec.sensorCols ≠ [] ∧ 0 < spec.stride ∧ spec.stride ≤ spec.windowSize)

namespace RollingWindow

open Windows (Buffer)

variable {spec : FeatureSpec}

/-- The rows and the count are those of a buffer, and nothing but sensors was carried. -/
structure Simulates (spec : FeatureSpec) (w : RollingWindow) (b : Buffer (Instant × FrameRow)) : Prop where
  rows : w.rows = b.items
  since : w.sinceEmit = b.since
  sensors : ∀ name, name ∉ spec.sensorCols → w.last.get? name = none

theorem simulates_empty : Simulates spec empty ⟨[], 0⟩ where
  rows := rfl
  since := rfl
  sensors _ _ := rfl

/-- A sample with all sensors is pushed as its row. -/
theorem Simulates.add {w : RollingWindow} {b : Buffer (Instant × FrameRow)} (h : Simulates spec w b)
    (hsensors : spec.sensorCols ≠ []) {x : Sample} (hx : x.Carries spec) :
    Simulates spec (w.add spec x).1 (b.push spec.windowSize spec.stride (x.row spec)).1 ∧
      (w.add spec x).2 = (b.push spec.windowSize spec.stride (x.row spec)).2 := by
  have hlast : ∀ name, (carry spec.sensorCols w.last x.metrics).get? name =
      if name ∈ spec.sensorCols then x.metrics name else none := by
    intro name
    rw [get?_carry]
    split
    · rename_i hname
      obtain ⟨v, hv⟩ := Option.isSome_iff_exists.mp (hx name hname)
      rw [hv, Option.some_or]
    · rename_i hname
      exact h.sensors name hname
  have hknown : spec.sensorCols.any (fun name => ((carry spec.sensorCols w.last x.metrics).get? name).isSome) = true := by
    obtain ⟨name, rest, hcols⟩ := List.exists_cons_of_ne_nil hsensors
    have hname : name ∈ spec.sensorCols := hcols ▸ List.mem_cons_self
    refine List.any_eq_true.mpr ⟨name, hname, ?_⟩
    rw [hlast, if_pos hname]
    exact hx name hname
  have hrow : (x.time, fun name => ((carry spec.sensorCols w.last x.metrics).get? name).getD (.finite 0)) = x.row spec := by
    refine Prod.ext rfl (funext fun name => ?_)
    show ((carry spec.sensorCols w.last x.metrics).get? name).getD (.finite 0) = _
    rw [hlast]
    show _ = if name ∈ spec.sensorCols then (x.metrics name).getD (.finite 0) else .finite 0
    split <;> rfl
  have hkept : ∀ name, name ∉ spec.sensorCols → (carry spec.sensorCols w.last x.metrics).get? name = none := by
    intro name hname
    rw [hlast, if_neg hname]
  unfold RollingWindow.add Buffer.push
  dsimp only
  rw [if_neg (not_not.mpr hknown), hrow, h.rows, h.since]
  split
  · exact ⟨⟨rfl, rfl, hkept⟩, rfl⟩
  · exact ⟨⟨rfl, rfl, hkept⟩, rfl⟩

theorem collects_append (samples : List Sample) (x : Sample) :
    collects spec (samples ++ [x]) = collect spec (collects spec samples) x := by
  rw [collects, List.foldl_append]
  rfl

/-- Over samples with all sensors the edge emits what a buffer of their rows emits. -/
theorem simulates_collects (hsensors : spec.sensorCols ≠ []) {samples : List Sample}
    (h : ∀ x ∈ samples, x.Carries spec) :
    Simulates spec (collects spec samples).1
        (Buffer.feeds spec.windowSize spec.stride (samples.map (Sample.row spec))).1 ∧
      emissions spec samples = Buffer.emitted spec.windowSize spec.stride (samples.map (Sample.row spec)) := by
  induction samples using List.reverseRecOn with
  | nil => exact ⟨simulates_empty, rfl⟩
  | append_singleton samples x ih =>
    obtain ⟨hsim, hemitted⟩ := ih fun y hy => h y (List.mem_append_left _ hy)
    obtain ⟨hnext, hdue⟩ := hsim.add hsensors (h x (by simp))
    rw [emissions, Buffer.emitted, collects_append, List.map_append, List.map_singleton, Buffer.feeds_append]
    refine ⟨hnext, ?_⟩
    rw [emissions, Buffer.emitted] at hemitted
    rw [collect, Buffer.feed]
    dsimp only
    rw [hdue, hnext.rows, hemitted]

/-- Without a sensor nothing is emitted. -/
theorem emissions_of_no_sensors (h : spec.sensorCols = []) (samples : List Sample) : emissions spec samples = [] := by
  induction samples using List.reverseRecOn with
  | nil => rfl
  | append_singleton samples x ih =>
    have hidle : ((collects spec samples).1.add spec x).2 = false := by
      simp [RollingWindow.add, h]
    rw [emissions] at ih
    rw [emissions, collects_append, collect]
    dsimp only
    rw [hidle, ih]
    rfl

end RollingWindow

open Windows RollingWindow

variable {spec : FeatureSpec} {samples : List Sample}

theorem emissions_of_length_lt (h : ∀ x ∈ samples, x.Carries spec) (hshort : samples.length < spec.windowSize) :
    emissions spec samples = [] := by
  by_cases hsensors : spec.sensorCols = []
  · exact emissions_of_no_sensors hsensors samples
  · rw [(simulates_collects hsensors h).2]
    exact Buffer.emitted_of_length_lt (by rwa [List.length_map])

theorem windowsAgree_of_fits (h : ∀ x ∈ samples, x.Carries spec) (hfits : StrideFits spec samples.length) :
    WindowsAgree spec samples := by
  unfold WindowsAgree
  rcases hfits with hshort | ⟨hsensors, hpos, hle⟩
  · rw [emissions_of_length_lt h hshort]
    exact cutWindows_of_length_lt (by rwa [List.length_map]) _
  · rw [(simulates_collects hsensors h).2, cutWindows_eq_strided _ _ hpos, (Buffer.feeds_eq_strided hpos hle _).2]

/-- Rows that their times tell apart. -/
theorem nodup_rows (spec : FeatureSpec) (h : (samples.map Sample.time).Nodup) : (samples.map (Sample.row spec)).Nodup := by
  refine List.Nodup.of_map Prod.fst ?_
  rwa [List.map_map]

theorem fits_of_windowsAgree (h : ∀ x ∈ samples, x.Carries spec) (htimes : (samples.map Sample.time).Nodup)
    (hagree : WindowsAgree spec samples) : StrideFits spec samples.length := by
  unfold StrideFits
  by_cases hshort : samples.length < spec.windowSize
  · exact .inl hshort
  · have hlength : spec.windowSize ≤ (samples.map (Sample.row spec)).length := by
      rw [List.length_map]
      exact Nat.not_lt.mp hshort
    have hstride : 0 < spec.stride := by
      by_contra hzero
      rw [WindowsAgree, cutWindows, if_neg (Nat.not_lt.mpr hlength), if_pos (Nat.eq_zero_of_not_pos hzero)] at hagree
      cases hagree
    rw [WindowsAgree, cutWindows_eq_strided _ _ hstride, Option.some_inj] at hagree
    have hsensors : spec.sensorCols ≠ [] := by
      intro hnone
      have hwindows := congrArg List.length hagree
      rw [emissions_of_no_sensors hnone, length_strided, List.length_nil] at hwindows
      have hfirst : 0 < count spec.windowSize spec.stride (samples.map (Sample.row spec)).length :=
        (lt_count_iff hstride).mpr (by omega)
      omega
    rw [(simulates_collects hsensors h).2] at hagree
    exact .inr ⟨hsensors, hstride, Buffer.stride_le_of_emitted_eq (nodup_rows spec htimes) hstride hlength hagree.symm⟩

/-- The edge emits the windows of the table where a stride is no longer than a window; and only
there, of samples that their times tell apart. -/
theorem windows_agree_iff (spec : FeatureSpec) (samples : List Sample) (hcarries : ∀ x ∈ samples, x.Carries spec) :
    (StrideFits spec samples.length → WindowsAgree spec samples) ∧
      ((samples.map Sample.time).Nodup → WindowsAgree spec samples → StrideFits spec samples.length) :=
  ⟨windowsAgree_of_fits hcarries, fits_of_windowsAgree hcarries⟩

/-- Samples of one sensor, a second apart. -/
def ticks (n : Nat) : List Sample := (List.range n).map fun i => ⟨1000000 * i, fun _ => some (.finite i)⟩

theorem ticks_carry (spec : FeatureSpec) (n : Nat) : ∀ x ∈ ticks n, x.Carries spec := by
  intro x hx name _
  obtain ⟨i, -, rfl⟩ := List.mem_map.mp hx
  rfl

/-- Windows of ten at every eleventh sample. -/
def skipping : FeatureSpec := ⟨10, 11, ["mean"], ["vib_rms"]⟩

/-- Windows of ten at every fifth sample. -/
theorem windows_agree_iff_overlapping :
    WindowsAgree { skipping with stride := 5 } (ticks 25) :=
  (windows_agree_iff { skipping with stride := 5 } (ticks 25) (ticks_carry _ 25)).1
    (.inr ⟨List.cons_ne_nil _ _, by decide, by decide⟩)

/-- Of eleven samples the table has the first ten, the edge the last. -/
theorem windows_differ_of_long_stride : ¬ ∀ (spec : FeatureSpec) (samples : List Sample),
    (∀ x ∈ samples, x.Carries spec) → WindowsAgree spec samples := by
  intro h
  have hagree := h skipping (ticks 11) (ticks_carry skipping 11)
  have htimes := congrArg (Option.map (List.map (List.map Prod.fst))) hagree
  revert htimes
  decide +kernel

end TwinVoice.Edge
