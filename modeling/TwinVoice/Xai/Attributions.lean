import Mathlib.Algebra.BigOperators.Ring.List
import Mathlib.Algebra.Order.BigOperators.Group.List
import Mathlib.Data.List.OfFn
import TwinVoice.Xai.GroundTruth
import TwinVoice.Xai.Quality

/-! # Attribution lists

`build_attributions` over exact numbers. The list goes through an order of the
places, so it is a rearrangement of the features with what belongs to them. The
shares are of the total of the magnitudes, which is zero only if all of them
are. -/

namespace TwinVoice.Xai.Exact

structure Attribution (K : Type) where
  feature : String
  label : String
  value : K
  unit : String
  contribution : K
  direction : Direction
  share : K
  rank : Nat

section
variable {K : Type} [Field K] [LinearOrder K] (t : Texts) (argsort : ∀ n, Argsort K n) (l : FeatureLabels)

def directionWord (contribution : K) : Direction :=
  if contribution = 0 then .neutral
  else if 0 < contribution then .raising
  else .lowering

def magnitude (contributions : List K) : K := (contributions.map fun c => |c|).sum

section
variable {n : Nat} (names : Fin n → String) (values contributions : Fin n → K) (total : K)

def attribution (idx : Fin n) (rank : Nat) : Attribution K :=
  let label := l.get t (names idx)
  { feature := names idx
    label := label.label
    value := values idx
    unit := label.unit
    contribution := contributions idx
    direction := directionWord (contributions idx)
    -- A total of 0 is a perfectly flat explanation.
    share := if 0 < total then |contributions idx| / total else 0
    rank := rank }

/-- The loop over an order of the places. -/
def ranked (order : List (Fin n)) : List (Attribution K) :=
  (order.zipIdx 1).map fun (idx, rank) => attribution t l names values contributions total idx rank

end

def buildAttributions (names : List String) (values contributions : List K) : Except XaiError (List (Attribution K)) :=
  if h : names.length = values.length ∧ values.length = contributions.length then
    let order := List.ofFn ((argsort contributions.length).order fun i => - |contributions.get i|)
    .ok (ranked t l (fun i => names.get (i.cast (h.1.trans h.2).symm)) (fun i => values.get (i.cast h.2.symm))
      contributions.get (magnitude contributions) order)
  else
    .error (.valueError ("length mismatch: " ++ toString names.length ++ " names, " ++ toString values.length ++
      " values, " ++ toString contributions.length ++ " contributions"))

/-- A list says of each feature once what is its own, most important first. -/
structure Lists (names : List String) (values contributions : List K) (out : List (Attribution K)) : Prop where
  own : (out.map fun a => (a.feature, a.value, a.contribution)).Perm (names.zip (values.zip contributions))
  labels : ∀ a ∈ out, a.label = (l.get t a.feature).label ∧ a.unit = (l.get t a.feature).unit
  ordered : out.Pairwise fun a b => |b.contribution| ≤ |a.contribution|
  ranks : out.map Attribution.rank = List.range' 1 names.length
  raising : ∀ a ∈ out, a.direction = .raising ↔ 0 < a.contribution
  lowering : ∀ a ∈ out, a.direction = .lowering ↔ a.contribution < 0
  neutral : ∀ a ∈ out, a.direction = .neutral ↔ a.contribution = 0
  nonneg : ∀ a ∈ out, 0 ≤ a.share
  shares : (∃ c ∈ contributions, c ≠ 0) → (out.map Attribution.share).sum = 1
  flat : (∀ c ∈ contributions, c = 0) → ∀ a ∈ out, a.share = 0

end

/-! ## Signs and magnitudes -/

section
variable {K : Type} [Field K] [LinearOrder K]

theorem directionWord_raising {c : K} : directionWord c = .raising ↔ 0 < c := by
  unfold directionWord
  split_ifs with hzero hpos
  · simp [hzero]
  · simp [hpos]
  · simp [hpos]

theorem directionWord_neutral {c : K} : directionWord c = .neutral ↔ c = 0 := by
  unfold directionWord
  split_ifs with hzero hpos
  · simp [hzero]
  · simp [hzero]
  · simp [hzero]

theorem directionWord_lowering {c : K} : directionWord c = .lowering ↔ c < 0 := by
  unfold directionWord
  split_ifs with hzero hpos
  · simp [hzero]
  · simp [hpos.le]
  · simp [lt_of_le_of_ne (not_lt.mp hpos) hzero]

end

section
variable {K : Type} [Field K] [LinearOrder K] [IsStrictOrderedRing K]

theorem magnitude_nonneg (contributions : List K) : 0 ≤ magnitude contributions :=
  List.sum_nonneg (List.forall_mem_map.mpr fun c _ => abs_nonneg c)

theorem magnitude_pos_iff {contributions : List K} : 0 < magnitude contributions ↔ ∃ c ∈ contributions, c ≠ 0 := by
  constructor
  · intro h
    by_contra hnone
    have hzero : ∀ c ∈ contributions.map fun c => |c|, c = 0 := by
      refine List.forall_mem_map.mpr fun c hc => abs_eq_zero.mpr ?_
      by_contra hne
      exact hnone ⟨c, hc, hne⟩
    exact absurd (List.sum_eq_zero hzero) h.ne'
  · intro h
    obtain ⟨c, hc, hne⟩ := h
    have hle : |c| ≤ magnitude contributions :=
      List.single_le_sum (List.forall_mem_map.mpr fun c _ => abs_nonneg c) _ (List.mem_map_of_mem hc)
    exact (abs_pos.mpr hne).trans_le hle

end

/-! ## Alignment -/

section
variable {K : Type} [Field K] [LinearOrder K] {t : Texts} {l : FeatureLabels} {n : Nat} {names : Fin n → String}
  {values contributions : Fin n → K} {total : K} {order : List (Fin n)}

theorem map_zipIdx_fst {α β : Type} (f : α → β) (xs : List α) (k : Nat) : (xs.zipIdx k).map (fun e => f e.1) = xs.map f := by
  calc (xs.zipIdx k).map (fun e => f e.1) = ((xs.zipIdx k).map Prod.fst).map f := by rw [List.map_map]; rfl
    _ = xs.map f := by rw [List.zipIdx_map_fst]

theorem forall_ranked {P : Attribution K → Prop}
    (h : ∀ idx rank, P (attribution t l names values contributions total idx rank)) :
    ∀ a ∈ ranked t l names values contributions total order, P a := by
  intro a ha
  obtain ⟨e, -, rfl⟩ := List.mem_map.mp ha
  exact h e.1 e.2

theorem ranked_own : (ranked t l names values contributions total order).map (fun a => (a.feature, a.value, a.contribution)) =
    order.map fun idx => (names idx, values idx, contributions idx) := by
  rw [ranked, List.map_map]
  exact map_zipIdx_fst (fun idx => (names idx, values idx, contributions idx)) order 1

theorem ranked_shares : (ranked t l names values contributions total order).map Attribution.share =
    order.map fun idx => if 0 < total then |contributions idx| / total else 0 := by
  rw [ranked, List.map_map]
  exact map_zipIdx_fst (fun idx => if 0 < total then |contributions idx| / total else 0) order 1

theorem ranked_ranks : (ranked t l names values contributions total order).map Attribution.rank =
    List.range' 1 order.length := by
  rw [ranked, List.map_map]
  exact List.zipIdx_map_snd 1 order

theorem ranked_ordered (h : order.Pairwise fun i j => |contributions j| ≤ |contributions i|) :
    (ranked t l names values contributions total order).Pairwise fun a b => |b.contribution| ≤ |a.contribution| := by
  rw [← List.zipIdx_map_fst 1 order, List.pairwise_map] at h
  rw [ranked, List.pairwise_map]
  exact h

end

section
variable {K : Type} [Field K] [LinearOrder K] {argsort : ∀ n, Argsort K n} {t : Texts} {l : FeatureLabels}

/-- The places in the order of their magnitudes. -/
def places (argsort : ∀ n, Argsort K n) (contributions : List K) : List (Fin contributions.length) :=
  List.ofFn ((argsort contributions.length).order fun i => - |contributions.get i|)

theorem map_places_perm {β : Type} (contributions : List K) (f : Fin contributions.length → β) :
    ((places argsort contributions).map f).Perm (List.ofFn f) := by
  rw [places, List.map_ofFn]
  exact Equiv.Perm.ofFn_comp_perm _ f

/-- The shares of the total. -/
theorem sum_shares {contributions : List K} (h : 0 < magnitude contributions) :
    ((places argsort contributions).map fun idx => if 0 < magnitude contributions then
      |contributions.get idx| / magnitude contributions else 0).sum = 1 := by
  have hofFn : List.ofFn (fun idx => |contributions.get idx| * (magnitude contributions)⁻¹) =
      contributions.map fun c => |c| * (magnitude contributions)⁻¹ := by
    have hget : contributions.map (fun c => |c| * (magnitude contributions)⁻¹) =
        (List.ofFn contributions.get).map fun c => |c| * (magnitude contributions)⁻¹ := by rw [List.ofFn_get]
    rw [hget, List.map_ofFn]
    rfl
  simp only [if_pos h, div_eq_mul_inv]
  rw [(map_places_perm contributions _).sum_eq, hofFn, List.sum_map_mul_right]
  exact mul_inv_cancel₀ h.ne'

theorem Lists.contributions_perm {names : List String} {values contributions : List K} {out : List (Attribution K)}
    (h : names.length = values.length ∧ values.length = contributions.length)
    (hout : Lists t l names values contributions out) : (out.map Attribution.contribution).Perm contributions := by
  have hzip : (names.zip (values.zip contributions)).map (fun e => e.2.2) = contributions := by
    calc (names.zip (values.zip contributions)).map (fun e => e.2.2)
        = ((names.zip (values.zip contributions)).map Prod.snd).map Prod.snd := by rw [List.map_map]; rfl
      _ = (values.zip contributions).map Prod.snd := by
          rw [List.map_snd_zip (by rw [List.length_zip, h.1, h.2, Nat.min_self])]
      _ = contributions := List.map_snd_zip h.2.ge
  have hown := hout.own.map fun e => e.2.2
  rw [hzip, List.map_map] at hown
  exact hown

variable [IsStrictOrderedRing K]

theorem places_ordered (contributions : List K) :
    (places argsort contributions).Pairwise fun i j => |contributions.get j| ≤ |contributions.get i| := by
  rw [places, List.pairwise_ofFn]
  intro i j hij
  have hkeys := (argsort contributions.length).sorted (fun i => - |contributions.get i|) hij.le
  exact neg_le_neg_iff.mp hkeys

/-- The list of a vector of contributions is right, whatever they are. -/
theorem buildAttributions_lists {names : List String} {values contributions : List K}
    (h : names.length = values.length ∧ values.length = contributions.length) :
    ∃ out, buildAttributions t argsort l names values contributions = .ok out ∧
      Lists t l names values contributions out := by
  refine ⟨_, dif_pos h, ?_⟩
  constructor
  · rw [ranked_own]
    refine (map_places_perm contributions _).trans (List.Perm.of_eq ?_)
    apply List.ext_getElem
    · simp [h.1, h.2]
    · intro i _ _
      simp
  · exact forall_ranked fun _ _ => ⟨rfl, rfl⟩
  · exact ranked_ordered (places_ordered contributions)
  · rw [ranked_ranks, List.length_ofFn, h.1, h.2]
  · exact forall_ranked fun _ _ => directionWord_raising
  · exact forall_ranked fun _ _ => directionWord_lowering
  · exact forall_ranked fun _ _ => directionWord_neutral
  · refine forall_ranked fun idx rank => ?_
    rw [attribution]
    split_ifs
    · exact div_nonneg (abs_nonneg _) (magnitude_nonneg _)
    · exact le_rfl
  · intro hmoves
    rw [ranked_shares]
    exact sum_shares (magnitude_pos_iff.mpr hmoves)
  · intro hflat
    refine forall_ranked fun idx rank => if_neg fun hpos => ?_
    obtain ⟨c, hc, hne⟩ := magnitude_pos_iff.mp hpos
    exact hne (hflat c hc)

end

/-- Three features of which two weigh the same and one nothing. -/
theorem three_features_listed : ∃ out,
    buildAttributions asciiTexts sorting FeatureLabels.shipped ["load_pct", "speed", "flow"] [50, 900, 3] [1 / 2, 0, -1 / 2] =
        .ok out ∧
      Lists asciiTexts FeatureLabels.shipped ["load_pct", "speed", "flow"] [50, 900, 3] [1 / 2, 0, -1 / 2] out :=
  buildAttributions_lists ⟨rfl, rfl⟩

end TwinVoice.Xai.Exact
