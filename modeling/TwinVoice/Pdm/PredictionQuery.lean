import Mathlib.Algebra.Order.Group.Int
import Mathlib.Data.List.Sort
import Mathlib.Tactic.Linarith
import TwinVoice.Ingest.EdgePredictions
import TwinVoice.Lib.Sequence

/-! # Reading a range of predictions

A range of an asset's predictions may hold more rows than are asked for. They
are numbered in the order of their times and every n-th one is returned, for
the least n that leaves no more than the limit. -/

namespace TwinVoice.Pdm

open TwinVoice.Lib TwinVoice.Lib.Thinning
open TwinVoice.Ingest.EdgePredictions (Prediction)

def InTimeOrder (rows : List Prediction) : Prop := rows.Pairwise fun r r' => r.time ≤ r'.time

/-- How the database orders rows by their times; nothing is said of rows of one time. -/
structure TimeOrder where
  sort : List Prediction → List Prediction
  perm : ∀ rows, (sort rows).Perm rows
  sorted : ∀ rows, InTimeOrder (sort rows)

/-- `in_range`. -/
def inRange (t : Table Prediction) (assetId : Uuid) (start stop : Instant) : List Prediction :=
  t.rows.filter fun r => r.assetId = assetId ∧ start ≤ r.time ∧ r.time < stop

/-- `step`, with the rounding of Python's `//`. -/
def stepOf (total limit : Nat) : Nat := if limit < total then (-(-(total : Int) / limit)).toNat else 1

/-- `PredictionRepository.query`; the row numbers and the answer are ordered separately. -/
def query (numbering ordering : TimeOrder) (t : Table Prediction) (assetId : Uuid) (start stop : Instant)
    (limit : Nat) : List Prediction :=
  let rows := inRange t assetId start stop
  (ordering.sort (everyNth (stepOf rows.length limit) (numbering.sort rows))).take limit

/-- Every n-th of the rows, from the first one to less than n rows before the end. -/
structure EveryNth (rows out ordered kept : List Prediction) (n : Nat) : Prop where
  rows_perm : ordered.Perm rows
  in_order : InTimeOrder ordered
  pos : 0 < n
  kept_at : ∀ i, kept[i]? = ordered[n * i]?
  reach : ordered.length ≤ n * kept.length
  out_perm : out.Perm kept
  out_times : out.map Prediction.time = kept.map Prediction.time

theorem stepOf_spec (total : Nat) {limit : Nat} (h : 1 ≤ limit) :
    0 < stepOf total limit ∧ total ≤ stepOf total limit * limit := by
  unfold stepOf
  split
  · rename_i hmore
    have hlimit : (0 : Int) < limit := Int.natCast_pos.mpr h
    have hfloor : -(total : Int) / limit * limit ≤ -(total : Int) := Int.ediv_mul_le _ hlimit.ne'
    have hneg : -(total : Int) / limit < 0 := Int.ediv_neg_of_neg_of_pos (by omega) hlimit
    have hcast : ((-(-(total : Int) / limit)).toNat : Int) = -(-(total : Int) / limit) := Int.toNat_of_nonneg (by omega)
    refine ⟨by omega, ?_⟩
    have hcover : (total : Int) ≤ (-(-(total : Int) / limit)).toNat * limit := by
      rw [hcast, neg_mul]
      omega
    exact_mod_cast hcover
  · rename_i hfew
    exact ⟨Nat.one_pos, by omega⟩

/-- Rows that are in order have the same times in whichever order they are. -/
theorem times_eq_of_perm {rows rows' : List Prediction} (hperm : rows.Perm rows') (h : InTimeOrder rows)
    (h' : InTimeOrder rows') : rows.map Prediction.time = rows'.map Prediction.time :=
  (hperm.map Prediction.time).eq_of_pairwise' (List.pairwise_map.mpr h) (List.pairwise_map.mpr h')

/-- A query returns every n-th row of its range in the order of time, no more than the limit, and all of them where
they are no more. -/
theorem query_thins (numbering ordering : TimeOrder) (t : Table Prediction) (assetId : Uuid) (start stop : Instant)
    (limit : Nat) (h : 1 ≤ limit) :
    (query numbering ordering t assetId start stop limit).length ≤ limit ∧
      InTimeOrder (query numbering ordering t assetId start stop limit) ∧
      (∃ ordered kept n, EveryNth (inRange t assetId start stop) (query numbering ordering t assetId start stop limit)
        ordered kept n) ∧
      ((inRange t assetId start stop).length ≤ limit →
        (query numbering ordering t assetId start stop limit).Perm (inRange t assetId start stop)) := by
  obtain ⟨hpos, hcover⟩ := stepOf_spec (inRange t assetId start stop).length h
  generalize hrows : inRange t assetId start stop = rows at hpos hcover
  generalize hstep : stepOf rows.length limit = n at hpos hcover
  have hordered := numbering.perm rows
  have hlength : (everyNth n (numbering.sort rows)).length ≤ limit :=
    length_everyNth_le hpos (by rwa [hordered.length_eq])
  have hperm := ordering.perm (everyNth n (numbering.sort rows))
  have hquery : query numbering ordering t assetId start stop limit =
      ordering.sort (everyNth n (numbering.sort rows)) := by
    unfold query
    dsimp only
    rw [hrows, hstep]
    exact List.take_of_length_le (by rwa [hperm.length_eq])
  rw [hquery]
  have hsorted := ordering.sorted (everyNth n (numbering.sort rows))
  have hkept : InTimeOrder (everyNth n (numbering.sort rows)) := (numbering.sorted rows).sublist (everyNth_sublist n _)
  refine ⟨by rwa [hperm.length_eq], hsorted, ?_, fun hfew => ?_⟩
  · exact ⟨numbering.sort rows, everyNth n (numbering.sort rows), n,
      { rows_perm := hordered
        in_order := numbering.sorted rows
        pos := hpos
        kept_at := getElem?_everyNth hpos _
        reach := length_le_mul_everyNth hpos _
        out_perm := hperm
        out_times := times_eq_of_perm hperm hsorted hkept }⟩
  · have hall : n = 1 := by rw [← hstep, stepOf, if_neg (Nat.not_lt.mpr hfew)]
    subst hall
    rw [everyNth_one] at hperm ⊢
    exact hperm.trans hordered

def byTime : TimeOrder where
  sort rows := rows.mergeSort fun r r' => decide (r.time ≤ r'.time)
  perm rows := List.mergeSort_perm rows _
  sorted rows := by
    have htrans (a b c : Prediction) (hab : decide (a.time ≤ b.time) = true) (hbc : decide (b.time ≤ c.time) = true) :
        decide (a.time ≤ c.time) = true :=
      decide_eq_true ((of_decide_eq_true hab).trans (of_decide_eq_true hbc))
    have htotal (a b : Prediction) : (decide (a.time ≤ b.time) || decide (b.time ≤ a.time)) = true := by
      simpa using Int.le_total a.time b.time
    exact (List.pairwise_mergeSort htrans htotal rows).imp fun h => of_decide_eq_true h

def predictionAt (time : Instant) : Prediction :=
  ⟨0, time, 1, 1, 0, time, none, none, none, none, none, none, none, none, none, [], false, none, "edge", none⟩

/-- Predictions of five minutes. -/
def fiveMinutes : Table Prediction := ⟨[3, 1, 0, 2, 4].map fun k => predictionAt (minutes k), by decide⟩

theorem query_thins_five_minutes :
    (query byTime byTime fiveMinutes 1 0 (minutes 4) 3).length ≤ 3 ∧
      InTimeOrder (query byTime byTime fiveMinutes 1 0 (minutes 4) 3) ∧
      (∃ ordered kept n, EveryNth (inRange fiveMinutes 1 0 (minutes 4))
        (query byTime byTime fiveMinutes 1 0 (minutes 4) 3) ordered kept n) ∧
      ((inRange fiveMinutes 1 0 (minutes 4)).length ≤ 3 →
        (query byTime byTime fiveMinutes 1 0 (minutes 4) 3).Perm (inRange fiveMinutes 1 0 (minutes 4))) :=
  query_thins byTime byTime fiveMinutes 1 0 (minutes 4) 3 (by decide)

end TwinVoice.Pdm
