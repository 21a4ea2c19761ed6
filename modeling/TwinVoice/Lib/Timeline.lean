import Mathlib.Data.Finset.Card
import Mathlib.Data.Finset.Dedup
import Mathlib.Data.Finset.Max
import Mathlib.Data.Int.Interval
import Mathlib.Data.List.Sort
import Mathlib.Order.Defs.LinearOrder

/-! # Timelines of state changes

Rows in the order of their times, each in force from its own time until the
next one takes over. `spans` cuts a period into the stretches during which one
row is in force; that they are the right ones is said by counting instants:
the lengths of the spans of some kind add up to the number of instants of the
period at which a row of that kind is in force. -/

namespace TwinVoice.Lib.Timeline

variable {ρ : Type} (time : ρ → ℤ)

def Ordered (rows : List ρ) : Prop := rows.Pairwise fun r r' => time r ≤ time r'

/-- The last row whose time has come. -/
def inForce : List ρ → ℤ → Option ρ
  | [], _ => none
  | r :: rs, t => (inForce rs t).or (if time r ≤ t then some r else none)

/-- The time at which the first of these rows takes over, or the end. -/
def takeover (stop : ℤ) : List ρ → ℤ
  | [] => stop
  | r :: _ => time r

/-- The length of the stretch of the period in which `r` is in force, if positive. -/
def stretch (start stop : ℤ) (r : ρ) (rs : List ρ) : ℤ :=
  min (takeover time stop rs) stop - max (time r) start

/-- The stretches of a period with the rows in force, in order. -/
def spans (start stop : ℤ) : List ρ → List (ρ × ℤ)
  | [] => []
  | r :: rs =>
    if 0 < stretch time start stop r rs then (r, stretch time start stop r rs) :: spans start stop rs
    else spans start stop rs

theorem spans_pos {start stop : ℤ} {rows : List ρ} {part : ρ × ℤ} (h : part ∈ spans time start stop rows) :
    0 < part.2 := by
  induction rows with
  | nil => cases h
  | cons r rs ih =>
    rw [spans] at h
    split at h
    · rcases List.mem_cons.mp h with rfl | h
      · assumption
      · exact ih h
    · exact ih h

/-- The time spent in rows of one kind. -/
def total (p : ρ → Prop) [DecidablePred p] (parts : List (ρ × ℤ)) : ℤ :=
  ((parts.filter fun part => p part.1).map Prod.snd).sum

theorem inForce_mem {rows : List ρ} {t : ℤ} {r : ρ} (h : inForce time rows t = some r) :
    r ∈ rows ∧ time r ≤ t := by
  induction rows with
  | nil => cases h
  | cons x xs ih =>
    rw [inForce, Option.or_eq_some_iff] at h
    rcases h with h | ⟨-, h⟩
    · exact ⟨List.mem_cons_of_mem x (ih h).1, (ih h).2⟩
    · split at h
      · cases h
        exact ⟨List.mem_cons_self, by assumption⟩
      · cases h

theorem inForce_eq_none {rows : List ρ} {t : ℤ} :
    inForce time rows t = none ↔ ∀ r ∈ rows, t < time r := by
  induction rows with
  | nil => exact ⟨fun _ _ hr => absurd hr List.not_mem_nil, fun _ => rfl⟩
  | cons x xs ih =>
    rw [inForce, Option.or_eq_none_iff, ih, List.forall_mem_cons]
    constructor
    · rintro ⟨hxs, hx⟩
      refine ⟨?_, hxs⟩
      split at hx
      · cases hx
      · omega
    · rintro ⟨hx, hxs⟩
      exact ⟨hxs, if_neg (by omega)⟩

/-- Of the rows whose time has come the one in force is the last in the list. -/
theorem inForce_last {R : ρ → ρ → Prop} {rows : List ρ} (hs : rows.Pairwise R) {t : ℤ} {r : ρ}
    (h : inForce time rows t = some r) : ∀ x ∈ rows, time x ≤ t → x = r ∨ R x r := by
  induction rows with
  | nil => cases h
  | cons y ys ih =>
    obtain ⟨hy, hys⟩ := List.pairwise_cons.mp hs
    rw [inForce, Option.or_eq_some_iff] at h
    intro x hx hxt
    rcases h with h | ⟨hnone, h⟩
    · rcases List.mem_cons.mp hx with rfl | hx
      · exact .inr (hy r (inForce_mem time h).1)
      · exact ih hys h x hx hxt
    · split at h
      · cases h
        rcases List.mem_cons.mp hx with rfl | hx
        · exact .inl rfl
        · have := (inForce_eq_none time).mp hnone x hx
          omega
      · cases h

theorem inForce_latest {rows : List ρ} (hs : Ordered time rows) {t : ℤ} {r : ρ}
    (h : inForce time rows t = some r) (x : ρ) (hx : x ∈ rows) (hxt : time x ≤ t) :
    time x ≤ time r := by
  rcases inForce_last time hs h x hx hxt with rfl | hle
  · exact le_refl _
  · exact hle

theorem inForce_append (rows rows' : List ρ) (t : ℤ) :
    inForce time (rows ++ rows') t = (inForce time rows' t).or (inForce time rows t) := by
  induction rows with
  | nil => simp [inForce]
  | cons r rs ih => rw [List.cons_append, inForce, inForce, ih, Option.or_assoc]

/-- What comes later makes no difference. -/
theorem inForce_filter {p : ρ → Bool} {rows : List ρ} {t : ℤ} (h : ∀ r ∈ rows, time r ≤ t → p r = true) :
    inForce time (rows.filter p) t = inForce time rows t := by
  induction rows with
  | nil => rfl
  | cons r rs ih =>
    have hrest := ih fun x hx => h x (List.mem_cons_of_mem r hx)
    rw [List.filter_cons]
    split
    · rw [inForce, inForce, hrest]
    · rename_i hp
      have hlate : ¬ time r ≤ t := fun hle => hp (h r List.mem_cons_self hle)
      rw [inForce, if_neg hlate, Option.or_none, hrest]

/-- Once the time of all rows has come, the last is in force. -/
theorem inForce_eq_getLast {rows : List ρ} {t : ℤ} (h : ∀ r ∈ rows, time r ≤ t) :
    inForce time rows t = rows.getLast? := by
  induction rows with
  | nil => rfl
  | cons r rs ih =>
    rw [inForce, ih fun x hx => h x (List.mem_cons_of_mem r hx), if_pos (h r List.mem_cons_self),
      List.getLast?_cons]
    cases rs.getLast? <;> rfl

/-- Of the rows whose time has come those of the latest time, and of these the last listed. -/
def latest (rows : List ρ) (t : ℤ) : Option ρ :=
  (rows.filter fun r => time r ≤ t ∧ ∀ x ∈ rows, time x ≤ t → time x ≤ time r).getLast?

theorem latest_eq_none {rows : List ρ} {t : ℤ} (h : ∀ r ∈ rows, t < time r) : latest time rows t = none := by
  have hempty : (rows.filter fun r => time r ≤ t ∧ ∀ x ∈ rows, time x ≤ t → time x ≤ time r) = [] := by
    refine List.filter_eq_nil_iff.mpr ?_
    intro r hr hcome
    have := (of_decide_eq_true hcome).1
    have := h r hr
    omega
  rw [latest, hempty, List.getLast?_nil]

/-- A stable sort keeps the order of the rows of one time. -/
theorem filter_insertionSort (rows : List ρ) (instant : ℤ) :
    (rows.insertionSort fun r r' => time r ≤ time r').filter (fun r => time r = instant) =
      rows.filter fun r => time r = instant := by
  have hsame : (rows.filter fun r => time r = instant).Pairwise fun r r' => time r ≤ time r' := by
    refine List.pairwise_of_forall_mem_list ?_
    intro r hr r' hr'
    have hr := of_decide_eq_true (List.mem_filter.mp hr).2
    have hr' := of_decide_eq_true (List.mem_filter.mp hr').2
    omega
  have hsub : ((rows.filter fun r => time r = instant).filter fun r => time r = instant).Sublist
      ((rows.insertionSort fun r r' => time r ≤ time r').filter fun r => time r = instant) :=
    (List.sublist_insertionSort hsame List.filter_sublist).filter _
  rw [List.filter_filter] at hsub
  simp only [Bool.and_self] at hsub
  exact (hsub.eq_of_length ((List.perm_insertionSort _ rows).filter _).length_eq.symm).symm

/-- Sorted by their times, stably, the rows decide as the list of them does. -/
theorem inForce_insertionSort (rows : List ρ) (t : ℤ) :
    inForce time (rows.insertionSort fun r r' => time r ≤ time r') t = latest time rows t := by
  have hs : Ordered time (rows.insertionSort fun r r' => time r ≤ time r') := List.pairwise_insertionSort _ _
  have hmem : ∀ {x}, x ∈ (rows.insertionSort fun r r' => time r ≤ time r') ↔ x ∈ rows := List.mem_insertionSort _
  cases h : inForce time (rows.insertionSort fun r r' => time r ≤ time r') t with
  | none =>
    refine (latest_eq_none time ?_).symm
    intro r hr
    exact (inForce_eq_none time).mp h r (hmem.mpr hr)
  | some r =>
    obtain ⟨hr, hrt⟩ := inForce_mem time h
    have hlatest := inForce_latest time hs h
    -- the candidates are the rows of the time of the row in force
    have hcandidates : (rows.filter fun x => time x ≤ t ∧ ∀ y ∈ rows, time y ≤ t → time y ≤ time x) =
        rows.filter fun x => time x = time r := by
      refine List.filter_congr fun x hx => decide_eq_decide.mpr ?_
      constructor
      · rintro ⟨hxt, hmax⟩
        exact le_antisymm (hlatest x (hmem.mpr hx) hxt) (hmax r (hmem.mp hr) hrt)
      · intro heq
        refine ⟨heq ▸ hrt, fun y hy hyt => ?_⟩
        rw [heq]
        exact hlatest y (hmem.mpr hy) hyt
    rw [latest, hcandidates, ← filter_insertionSort]
    have hlast : ((rows.insertionSort fun r r' => time r ≤ time r').filter fun x => time x ≤ t).getLast? = some r := by
      rw [← inForce_eq_getLast time fun x hx => of_decide_eq_true (List.mem_filter.mp hx).2,
        inForce_filter time fun x _ hle => decide_eq_true hle, h]
    obtain ⟨init, hinit⟩ := List.getLast?_eq_some_iff.mp hlast
    have hsplit : ((rows.insertionSort fun r r' => time r ≤ time r').filter fun x => time x = time r) =
        (init ++ [r]).filter fun x => time x = time r := by
      rw [← hinit, List.filter_filter]
      refine List.filter_congr fun x _ => ?_
      by_cases hx : time x = time r
      · simp [hx, hrt]
      · simp [hx]
    rw [hsplit, List.filter_append, List.filter_cons_of_pos (by simp), List.filter_nil, List.getLast?_concat]

/-- The rows from before an instant come first. -/
theorem filter_append_filter {rows : List ρ} (hs : Ordered time rows) (start : ℤ) :
    (rows.filter fun r => time r < start) ++ (rows.filter fun r => start ≤ time r) = rows := by
  induction rows with
  | nil => rfl
  | cons r rs ih =>
    obtain ⟨hr, hrs⟩ := List.pairwise_cons.mp hs
    by_cases hlt : time r < start
    · simp only [List.filter_cons, decide_eq_true hlt, decide_eq_false (not_le.mpr hlt), if_true, Bool.false_eq_true,
        if_false, List.cons_append, ih hrs]
    · have hearly : (r :: rs).filter (fun r => time r < start) = [] := by
        refine List.filter_eq_nil_iff.mpr ?_
        intro x hx
        rcases List.mem_cons.mp hx with rfl | hx
        · simpa using hlt
        · simpa using (not_lt.mp hlt).trans (hr x hx)
      have hlate : (r :: rs).filter (fun r => start ≤ time r) = r :: rs := by
        refine List.filter_eq_self.mpr ?_
        intro x hx
        rcases List.mem_cons.mp hx with rfl | hx
        · simpa using hlt
        · simpa using (not_lt.mp hlt).trans (hr x hx)
      rw [hearly, hlate, List.nil_append]

/-- At an instant of a period its rows decide, and before the first of them the last row from
before the period. -/
theorem inForce_carried {rows : List ρ} (hs : Ordered time rows) {start stop t : ℤ} (hstart : start ≤ t)
    (hstop : t < stop) :
    inForce time ((rows.filter fun r => time r < start).getLast?.toList ++
      rows.filter fun r => start ≤ time r ∧ time r < stop) t = inForce time rows t := by
  have hearly : inForce time (rows.filter fun r => time r < start).getLast?.toList t =
      inForce time (rows.filter fun r => time r < start) t := by
    have hold : ∀ r ∈ rows.filter fun r => time r < start, time r ≤ t := by
      intro r hr
      have hlt := of_decide_eq_true (List.mem_filter.mp hr).2
      exact hlt.le.trans hstart
    rw [inForce_eq_getLast time hold]
    cases hlast : (rows.filter fun r => time r < start).getLast? with
    | none => rfl
    | some r => simp [inForce, hold r (List.mem_of_getLast? hlast)]
  have hlate : inForce time (rows.filter fun r => start ≤ time r ∧ time r < stop) t =
      inForce time (rows.filter fun r => start ≤ time r) t := by
    have hsplit : (rows.filter fun r => start ≤ time r ∧ time r < stop) =
        (rows.filter fun r => start ≤ time r).filter fun r => time r < stop := by
      rw [List.filter_filter]
      simp only [Bool.decide_and, Bool.and_comm]
    rw [hsplit]
    exact inForce_filter time fun r _ hle => decide_eq_true (lt_of_le_of_lt hle hstop)
  rw [inForce_append, hearly, hlate, ← inForce_append, filter_append_filter time hs]

/-- The instants of a period, its end excluded. -/
def period (start stop : ℤ) : Finset ℤ :=
  (Finset.range (stop - start).toNat).image fun n : ℕ => start + n

@[simp] theorem mem_period {start stop t : ℤ} : t ∈ period start stop ↔ start ≤ t ∧ t < stop := by
  simp only [period, Finset.mem_image, Finset.mem_range]
  constructor
  · rintro ⟨n, hn, rfl⟩
    omega
  · rintro ⟨hstart, hstop⟩
    exact ⟨(t - start).toNat, by omega, by omega⟩

@[simp] theorem card_period (start stop : ℤ) : (period start stop).card = (stop - start).toNat := by
  have hinjective : Function.Injective fun n : ℕ => start + (n : ℤ) := by
    intro m n h
    simpa using h
  rw [period, Finset.card_image_of_injective _ hinjective, Finset.card_range]

/-- The instants of a period at which a row of some kind is in force. -/
def instants (start stop : ℤ) (p : ρ → Prop) [DecidablePred p] (rows : List ρ) : Finset ℤ :=
  (period start stop).filter fun t => (inForce time rows t).any fun r => p r

theorem mem_instants {start stop : ℤ} {p : ρ → Prop} [DecidablePred p] {rows : List ρ} {t : ℤ} :
    t ∈ instants time start stop p rows ↔
      (start ≤ t ∧ t < stop) ∧ ∃ r, inForce time rows t = some r ∧ p r := by
  unfold instants
  rw [Finset.mem_filter, mem_period]
  cases inForce time rows t <;> simp

theorem takeover_le {rows : List ρ} (hs : Ordered time rows) (stop : ℤ) {x : ρ} (hx : x ∈ rows) :
    takeover time stop rows ≤ time x := by
  cases rows with
  | nil => cases hx
  | cons r rs =>
    rcases List.mem_cons.mp hx with rfl | hx
    · exact le_refl _
    · exact (List.pairwise_cons.mp hs).1 x hx

/-- The first row is in force from its time to the takeover. -/
theorem inForce_cons_of_lt {r : ρ} {rs : List ρ} (hs : Ordered time rs) {stop t : ℤ}
    (ht : t < takeover time stop rs) :
    inForce time (r :: rs) t = if time r ≤ t then some r else none := by
  have hnone : inForce time rs t = none :=
    (inForce_eq_none time).mpr fun x hx => lt_of_lt_of_le ht (takeover_le time hs stop hx)
  rw [inForce, hnone, Option.none_or]

/-- After the takeover the rest decides. -/
theorem inForce_cons_of_le {r : ρ} {rs : List ρ} {stop t : ℤ} (hstop : t < stop)
    (ht : takeover time stop rs ≤ t) : inForce time (r :: rs) t = inForce time rs t := by
  cases rs with
  | nil => exact absurd ht (not_le.mpr hstop)
  | cons x xs =>
    cases h : inForce time (x :: xs) t with
    | none => exact absurd ((inForce_eq_none time).mp h x List.mem_cons_self) (not_lt.mpr ht)
    | some y => rw [inForce, h, Option.some_or]

theorem instants_cons {start stop : ℤ} {p : ρ → Prop} [DecidablePred p] {r : ρ} {rs : List ρ}
    (hs : Ordered time (r :: rs)) :
    instants time start stop p (r :: rs) = instants time start stop p rs ∪
      (if p r then period (max (time r) start) (min (takeover time stop rs) stop) else ∅) := by
  have hrs := (List.pairwise_cons.mp hs).2
  ext t
  rw [Finset.mem_union, mem_instants, mem_instants]
  by_cases hlt : t < takeover time stop rs
  · have hnone : inForce time rs t = none :=
      (inForce_eq_none time).mpr fun x hx => lt_of_lt_of_le hlt (takeover_le time hrs stop hx)
    rw [inForce_cons_of_lt time hrs hlt, hnone]
    by_cases hp : p r <;> by_cases ht : time r ≤ t <;> simp [hp, ht]
    all_goals omega
  · rw [not_lt] at hlt
    constructor
    · rintro ⟨hin, x, hx, hpx⟩
      rw [inForce_cons_of_le time hin.2 hlt] at hx
      exact .inl ⟨hin, x, hx, hpx⟩
    · rintro (⟨hin, x, hx, hpx⟩ | hmem)
      · exact ⟨hin, x, by rw [inForce_cons_of_le time hin.2 hlt, hx], hpx⟩
      · split at hmem
        · rw [mem_period] at hmem
          omega
        · cases hmem

theorem instants_disjoint {start stop : ℤ} {p : ρ → Prop} [DecidablePred p] {r : ρ} {rs : List ρ}
    (hs : Ordered time rs) : Disjoint (instants time start stop p rs)
      (if p r then period (max (time r) start) (min (takeover time stop rs) stop) else ∅) := by
  refine Finset.disjoint_left.mpr fun t hin hmem => ?_
  obtain ⟨-, x, hx, -⟩ := (mem_instants time).mp hin
  obtain ⟨hxmem, hxt⟩ := inForce_mem time hx
  have := takeover_le time hs stop hxmem
  split at hmem
  · rw [mem_period] at hmem
    omega
  · cases hmem

/-- The spans of a kind are as long as there are instants of that kind. -/
theorem total_spans {start stop : ℤ} (p : ρ → Prop) [DecidablePred p] {rows : List ρ}
    (hs : Ordered time rows) :
    total p (spans time start stop rows) = (instants time start stop p rows).card := by
  induction rows with
  | nil => simp [spans, total, instants, inForce]
  | cons r rs ih =>
    have hrs := (List.pairwise_cons.mp hs).2
    have hfirst : total p (spans time start stop (r :: rs)) =
        total p (spans time start stop rs) +
          (if p r then ((stretch time start stop r rs).toNat : ℤ) else 0) := by
      rw [spans]
      by_cases hpos : 0 < stretch time start stop r rs
      · rw [if_pos hpos]
        by_cases hp : p r
        · simp [total, hp, Int.toNat_of_nonneg hpos.le, add_comm]
        · simp [total, hp]
      · rw [if_neg hpos]
        simp [Int.toNat_of_nonpos (not_lt.mp hpos)]
    rw [hfirst, ih hrs, instants_cons time hs, Finset.card_union_of_disjoint (instants_disjoint time hrs)]
    by_cases hp : p r
    · rw [if_pos hp, if_pos hp, card_period, Nat.cast_add]
      rfl
    · simp [hp]

/-- Only the times and the kinds of the rows matter. -/
theorem spans_map {σ : Type} (f : σ → ρ) (start stop : ℤ) (rows : List σ) :
    spans time start stop (rows.map f) =
      (spans (time ∘ f) start stop rows).map fun part => (f part.1, part.2) := by
  induction rows with
  | nil => rfl
  | cons r rs ih =>
    have hstretch : stretch time start stop (f r) (rs.map f) = stretch (time ∘ f) start stop r rs := by
      cases rs <;> rfl
    rw [List.map_cons, spans, spans, hstretch, ih]
    split <;> rfl

end TwinVoice.Lib.Timeline

/-! ## Half-open intervals that lie over a stretch

A family of intervals `[start w, stop w)` over a linear order. Whether they
cover all of a stretch `[a, b)`, or leave all of it free, is said by what they
do at `a` and at the ends that lie strictly inside the stretch: nothing can
change in between. -/

namespace TwinVoice.Lib.Intervals

variable {α ι : Type*} [LinearOrder α] (start stop : ι → α)

def Covered (ws : List ι) (x : α) : Prop := ∃ w ∈ ws, start w ≤ x ∧ x < stop w

instance decidableCovered (ws : List ι) (x : α) : Decidable (Covered start stop ws x) :=
  inferInstanceAs (Decidable (∃ w ∈ ws, start w ≤ x ∧ x < stop w))

variable {start stop} {ws : List ι} {a b : α}

/-- The last of the ends that have passed when `x` is not covered. -/
theorem exists_last_stop {x : α} (ha : Covered start stop ws a) (hax : a ≤ x) (hx : ¬Covered start stop ws x) :
    ∃ w ∈ ws, a < stop w ∧ stop w ≤ x ∧ ∀ w' ∈ ws, stop w' ≤ x → stop w' ≤ stop w := by
  classical
  obtain ⟨w₀, hw₀, hstart, hstop⟩ := ha
  have hpassed : w₀ ∈ ws.toFinset.filter fun w => stop w ≤ x := by
    refine Finset.mem_filter.mpr ⟨List.mem_toFinset.mpr hw₀, ?_⟩
    by_contra hlater
    exact hx ⟨w₀, hw₀, hstart.trans hax, not_le.mp hlater⟩
  obtain ⟨w, hw, hlast⟩ := Finset.exists_max_image _ stop ⟨w₀, hpassed⟩
  obtain ⟨hmem, hwx⟩ := Finset.mem_filter.mp hw
  exact ⟨w, List.mem_toFinset.mp hmem, hstop.trans_le (hlast w₀ hpassed), hwx,
    fun w' hw' hle => hlast w' (Finset.mem_filter.mpr ⟨List.mem_toFinset.mpr hw', hle⟩)⟩

/-- A stretch is covered if its first point is and every end inside it. -/
theorem covered_throughout_iff (hab : a < b) :
    (∀ x, a ≤ x → x < b → Covered start stop ws x) ↔
      Covered start stop ws a ∧ ∀ w ∈ ws, a < stop w → stop w < b → Covered start stop ws (stop w) := by
  constructor
  · exact fun h => ⟨h a le_rfl hab, fun w _ hlo hhi => h _ hlo.le hhi⟩
  · rintro ⟨ha, hends⟩ x hax hxb
    by_contra hx
    obtain ⟨w, hw, hlo, hwx, hlast⟩ := exists_last_stop ha hax hx
    -- the interval that goes on there has not ended by `x`, so it covers `x`
    obtain ⟨w', hw', hstart, hstop⟩ := hends w hw hlo (hwx.trans_lt hxb)
    refine hx ⟨w', hw', hstart.trans hwx, ?_⟩
    by_contra hended
    exact absurd (hlast w' hw' (not_lt.mp hended)) (not_le.mpr hstop)

/-- A stretch is free if its first point is and no interval starts inside it. -/
theorem free_throughout_iff (hab : a < b) (hne : ∀ w ∈ ws, start w < stop w) :
    (∀ x, a ≤ x → x < b → ¬Covered start stop ws x) ↔
      ¬Covered start stop ws a ∧ ∀ w ∈ ws, a < start w → b ≤ start w := by
  constructor
  · intro h
    refine ⟨h a le_rfl hab, fun w hw hlo => not_lt.mp fun hhi => ?_⟩
    exact h (start w) hlo.le hhi ⟨w, hw, le_rfl, hne w hw⟩
  · rintro ⟨ha, hstarts⟩ x hax hxb ⟨w, hw, hlo, hhi⟩
    rcases lt_or_ge a (start w) with hinside | hbefore
    · exact absurd (hstarts w hw hinside) (not_le.mpr (hlo.trans_lt hxb))
    · exact ha ⟨w, hw, hbefore, hax.trans_lt hhi⟩

end TwinVoice.Lib.Intervals
