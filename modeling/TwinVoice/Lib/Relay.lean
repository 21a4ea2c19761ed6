import Mathlib.Data.List.Induction
import Mathlib.Data.List.Nodup
import TwinVoice.Lib.Sequence
import TwinVoice.Lib.Transition

/-! # A relay that stores and forwards

Entries are offered one at a time. An offered entry is forwarded at once, but
only past an empty queue, or joins the queue. The head of the queue is
forwarded and retired in two steps, and a crash between them leaves it in the
queue. The entries are numbered in the order of their offers.

Whatever the order of the steps, entries are first forwarded in the order of
their offers, none is lost that its offer has settled, and each is forwarded
at most once more than crashes have caught it between the two steps. -/

namespace TwinVoice.Lib

open Transition

structure Relay (α : Type*) where
  offered : List α
  /-- the offered entry that is neither forwarded nor queued yet -/
  held : Option α
  settled : List α
  queue : List α
  forwarded : List α
  /-- the head of the queue, if it is forwarded and not retired -/
  flying : Option α
  repeated : List α
  cut : List α

namespace Relay

inductive Label where
  | offer
  | forward
  | store
  | replay
  | retire
  | crash
  deriving DecidableEq, Repr

variable {α : Type*}

def empty : Relay α := ⟨[], none, [], [], [], none, [], []⟩

inductive Step (number : α → Nat) (r : Relay α) : Label → Relay α → Prop
  | offer (p) : r.held = none → number p = r.offered.length →
      Step number r .offer { r with offered := r.offered ++ [p], held := some p }
  | forward {p} : r.held = some p → r.queue = [] →
      Step number r .forward
        { r with held := none, settled := r.settled ++ [p], forwarded := r.forwarded ++ [p] }
  | store {p} : r.held = some p →
      Step number r .store
        { r with held := none, settled := r.settled ++ [p], queue := r.queue ++ [p] }
  | replay {p rest} : r.queue = p :: rest → r.flying = none →
      Step number r .replay { r with forwarded := r.forwarded ++ [p], flying := some p }
  | retire {p rest} : r.queue = p :: rest → r.flying = some p →
      Step number r .retire { r with queue := rest, flying := none }
  | crash : Step number r .crash
      { r with
        held := none, flying := none
        repeated := r.repeated ++ r.flying.toList
        cut := r.cut ++ r.held.toList }

/-! ## Order -/

structure Ordered (number : α → Nat) (r : Relay α) : Prop where
  numbered : r.offered.map number = List.range r.offered.length
  queued : ∀ p ∈ r.queue, p ∈ r.offered
  genuine : ∀ p ∈ r.forwarded, p ∈ r.offered
  ascending : r.queue.Pairwise fun p q => number p < number q
  behind : ∀ p ∈ r.forwarded, ∀ q ∈ r.queue, number p ≤ number q
  latest : ∀ p, r.held = some p →
    p ∈ r.offered ∧ (∀ q ∈ r.queue, number q < number p) ∧ ∀ q ∈ r.forwarded, number q < number p
  firsts : FirstsAscend number r.forwarded

variable {number : α → Nat} {r s : Relay α} {l : Label}

theorem Ordered.empty : Ordered number (empty : Relay α) where
  numbered := rfl
  queued := nofun
  genuine := nofun
  ascending := .nil
  behind := nofun
  latest := nofun
  firsts := .nil

/-- The head of the queue, if forwarded for the first time, ranks above all that was forwarded. -/
theorem Ordered.head_first (h : Ordered number r) {p : α} {rest : List α} (hq : r.queue = p :: rest)
    (hp : p ∉ r.forwarded) : ∀ q ∈ r.forwarded, number q < number p := by
  intro q hforwarded
  have hhead : p ∈ r.queue := hq ▸ List.mem_cons_self
  refine Nat.lt_of_le_of_ne (h.behind q hforwarded p hhead) fun hnumber => hp ?_
  rwa [← eq_of_numbered h.numbered (h.genuine q hforwarded) (h.queued p hhead) hnumber]

theorem Ordered.step (h : Ordered number r) (hstep : Step number r l s) : Ordered number s := by
  cases hstep with
  | offer p hheld hnumber =>
    have hlater : ∀ q ∈ r.offered, number q < number p := fun q hq =>
      hnumber ▸ lt_length_of_numbered h.numbered hq
    refine { h with
      numbered := numbered_snoc h.numbered hnumber
      queued := fun q hq => List.mem_append_left _ (h.queued q hq)
      genuine := fun q hq => List.mem_append_left _ (h.genuine q hq)
      latest := ?_ }
    rintro _ ⟨⟩
    exact ⟨by simp, fun q hq => hlater q (h.queued q hq), fun q hq => hlater q (h.genuine q hq)⟩
  | @forward p hheld hempty =>
    obtain ⟨hoffered, -, hlast⟩ := h.latest p hheld
    refine { h with
      genuine := ?_
      behind := fun _ _ q hq => by simp [hempty] at hq
      latest := nofun
      firsts := h.firsts.snoc fun _ => hlast }
    intro q hq
    rcases List.mem_append.mp hq with hold | hnew
    · exact h.genuine q hold
    · rwa [List.mem_singleton.mp hnew]
  | @store p hheld =>
    obtain ⟨hoffered, hqueue, hforwarded⟩ := h.latest p hheld
    refine { h with queued := ?_, ascending := ?_, behind := ?_, latest := nofun }
    · intro q hq
      rcases List.mem_append.mp hq with hold | hnew
      · exact h.queued q hold
      · rwa [List.mem_singleton.mp hnew]
    · refine List.pairwise_append.mpr ⟨h.ascending, List.pairwise_singleton _ _, ?_⟩
      intro q hq last hlast
      rw [List.mem_singleton.mp hlast]
      exact hqueue q hq
    · intro q hq last hlast
      rcases List.mem_append.mp hlast with hold | hnew
      · exact h.behind q hq last hold
      · rw [List.mem_singleton.mp hnew]
        exact Nat.le_of_lt (hforwarded q hq)
  | @replay p rest hqueue hflying =>
    have hhead : p ∈ r.queue := hqueue ▸ List.mem_cons_self
    refine { h with
      genuine := ?_
      behind := ?_
      latest := ?_
      firsts := h.firsts.snoc (h.head_first hqueue) }
    · intro q hq
      rcases List.mem_append.mp hq with hold | hnew
      · exact h.genuine q hold
      · rw [List.mem_singleton.mp hnew]
        exact h.queued p hhead
    · intro q hq last hlast
      rcases List.mem_append.mp hq with hold | hnew
      · exact h.behind q hold last hlast
      · rw [List.mem_singleton.mp hnew]
        have hascending := h.ascending
        rw [hqueue] at hascending
        rcases List.mem_cons.mp (hqueue ▸ hlast) with rfl | hlater
        · exact Nat.le_refl _
        · exact Nat.le_of_lt (List.rel_of_pairwise_cons hascending hlater)
    · intro held hheld
      obtain ⟨hoffered, hbefore, hforwarded⟩ := h.latest held hheld
      refine ⟨hoffered, hbefore, ?_⟩
      intro q hq
      rcases List.mem_append.mp hq with hold | hnew
      · exact hforwarded q hold
      · rw [List.mem_singleton.mp hnew]
        exact hbefore p hhead
  | @retire p rest hqueue hflying =>
    have hrest : ∀ q ∈ rest, q ∈ r.queue := fun q hq => hqueue ▸ List.mem_cons_of_mem _ hq
    have hascending := h.ascending
    rw [hqueue] at hascending
    refine { h with
      queued := fun q hq => h.queued q (hrest q hq)
      ascending := hascending.of_cons
      behind := fun q hq last hlast => h.behind q hq last (hrest last hlast)
      latest := ?_ }
    intro held hheld
    obtain ⟨hoffered, hbefore, hforwarded⟩ := h.latest held hheld
    exact ⟨hoffered, fun q hq => hbefore q (hrest q hq), hforwarded⟩
  | crash => exact { h with latest := nofun }

/-! ## No loss -/

structure Kept (r : Relay α) : Prop where
  accounted : ∀ p ∈ r.offered, p ∈ r.settled ∨ r.held = some p ∨ p ∈ r.cut
  kept : ∀ p ∈ r.settled, p ∈ r.forwarded ∨ p ∈ r.queue
  flown : ∀ p, r.flying = some p → p ∈ r.forwarded

theorem Kept.empty : Kept (empty : Relay α) := ⟨nofun, nofun, nofun⟩

theorem Kept.step (h : Kept r) (hstep : Step number r l s) : Kept s := by
  cases hstep with
  | offer p hheld hnumber =>
    refine { h with accounted := ?_ }
    intro q hq
    rcases List.mem_append.mp hq with hold | hnew
    · rcases h.accounted q hold with hsettled | hq | hcut
      · exact .inl hsettled
      · rw [hheld] at hq
        cases hq
      · exact .inr (.inr hcut)
    · exact .inr (.inl (congrArg some (List.mem_singleton.mp hnew).symm))
  | @forward p hheld hempty =>
    refine { h with accounted := ?_, kept := ?_, flown := ?_ }
    · intro q hq
      rcases h.accounted q hq with hsettled | hq | hcut
      · exact .inl (List.mem_append_left _ hsettled)
      · obtain rfl := Option.some.inj (hheld.symm.trans hq)
        exact .inl (by simp)
      · exact .inr (.inr hcut)
    · intro q hq
      rcases List.mem_append.mp hq with hold | hnew
      · rcases h.kept q hold with hforwarded | hqueue
        · exact .inl (List.mem_append_left _ hforwarded)
        · exact .inr hqueue
      · exact .inl (List.mem_append_right _ hnew)
    · exact fun q hq => List.mem_append_left _ (h.flown q hq)
  | @store p hheld =>
    refine { h with accounted := ?_, kept := ?_ }
    · intro q hq
      rcases h.accounted q hq with hsettled | hq | hcut
      · exact .inl (List.mem_append_left _ hsettled)
      · obtain rfl := Option.some.inj (hheld.symm.trans hq)
        exact .inl (by simp)
      · exact .inr (.inr hcut)
    · intro q hq
      rcases List.mem_append.mp hq with hold | hnew
      · rcases h.kept q hold with hforwarded | hqueue
        · exact .inl hforwarded
        · exact .inr (List.mem_append_left _ hqueue)
      · exact .inr (List.mem_append_right _ hnew)
  | @replay p rest hqueue hflying =>
    refine { h with kept := ?_, flown := ?_ }
    · intro q hq
      rcases h.kept q hq with hforwarded | hqueue
      · exact .inl (List.mem_append_left _ hforwarded)
      · exact .inr hqueue
    · rintro _ ⟨⟩
      simp
  | @retire p rest hqueue hflying =>
    refine { h with kept := ?_, flown := nofun }
    intro q hq
    rcases h.kept q hq with hforwarded | hq
    · exact .inl hforwarded
    · -- the row that leaves the queue has been forwarded
      rcases List.mem_cons.mp (hqueue ▸ hq) with rfl | hrest
      · exact .inl (h.flown q hflying)
      · exact .inr hrest
  | crash =>
    refine { h with accounted := ?_, flown := nofun }
    intro q hq
    rcases h.accounted q hq with hsettled | hq | hcut
    · exact .inl hsettled
    · exact .inr (.inr (by simp [hq]))
    · exact .inr (.inr (List.mem_append_left _ hcut))

/-! ## Repetition -/

section Repetition
variable [DecidableEq α]

/-- A queued entry that is not in flight has been forwarded at most as often as crashes caught it. -/
structure Bounded (r : Relay α) : Prop where
  once : ∀ p, r.forwarded.count p ≤ r.repeated.count p + 1
  owed : ∀ p ∈ r.queue, r.flying ≠ some p → r.forwarded.count p ≤ r.repeated.count p

theorem Bounded.empty : Bounded (empty : Relay α) := ⟨fun _ => Nat.zero_le _, nofun⟩

/-- An entry that ranks above all that was forwarded was not. -/
theorem Ordered.held_fresh (h : Ordered number r) {p : α} (hp : r.held = some p) :
    r.forwarded.count p = 0 :=
  List.count_eq_zero.mpr fun hforwarded => Nat.lt_irrefl _ ((h.latest p hp).2.2 p hforwarded)

theorem Bounded.step (h : Bounded r) (horder : Ordered number r) (hstep : Step number r l s) :
    Bounded s := by
  cases hstep with
  | offer p hheld hnumber => exact { h with }
  | @forward p hheld hempty =>
    refine { h with once := ?_, owed := fun q hq => by simp [hempty] at hq }
    intro q
    have hbefore := h.once q
    rw [List.count_append, List.count_singleton]
    by_cases hpq : p = q
    · subst hpq
      simp [horder.held_fresh hheld]
    · simpa [hpq] using hbefore
  | @store p hheld =>
    refine { h with owed := ?_ }
    intro q hq hflying
    rcases List.mem_append.mp hq with hold | hnew
    · exact h.owed q hold hflying
    · rw [List.mem_singleton.mp hnew, horder.held_fresh hheld]
      exact Nat.zero_le _
  | @replay p rest hqueue hflying =>
    have hother : ∀ q, p ≠ q → (r.forwarded ++ [p]).count q = r.forwarded.count q := by
      intro q hpq
      simp [hpq]
    refine { h with once := ?_, owed := ?_ }
    · intro q
      by_cases hpq : p = q
      · subst hpq
        have howed := h.owed p (hqueue ▸ List.mem_cons_self) (by simp [hflying])
        simp only [List.count_append, List.count_singleton_self]
        omega
      · simpa only [hother q hpq] using h.once q
    · intro q hq hpq
      have hne : p ≠ q := fun he => hpq (congrArg some he)
      rw [hother q hne]
      exact h.owed q hq (by simp [hflying])
  | @retire p rest hqueue hflying =>
    refine { h with owed := ?_ }
    intro q hq _
    have hascending := horder.ascending
    rw [hqueue] at hascending
    refine h.owed q (hqueue ▸ List.mem_cons_of_mem _ hq) fun hpq => ?_
    obtain rfl := Option.some.inj (hflying.symm.trans hpq)
    exact Nat.lt_irrefl _ (List.rel_of_pairwise_cons hascending hq)
  | crash =>
    refine { h with once := ?_, owed := ?_ }
    · intro q
      have hbefore := h.once q
      simp only [List.count_append]
      omega
    · intro q hq _
      simp only [List.count_append]
      by_cases hpq : r.flying = some q
      · have hbefore := h.once q
        simp only [hpq, Option.toList_some, List.count_singleton_self]
        omega
      · exact Nat.le_add_right_of_le (h.owed q hq hpq)

/-! ## Every run -/

structure Faithful (number : α → Nat) (ls : List Label) (r : Relay α) : Prop where
  ordered : Ordered number r
  kept : Kept r
  bounded : Bounded r
  repeats : r.repeated.length ≤ ls.count .crash
  cuts : r.cut.length ≤ ls.count .crash

theorem toList_length_le {β : Type*} (o : Option β) : o.toList.length ≤ 1 := by
  cases o <;> simp

theorem faithful_run {ls : List Label} (h : Run (Step number) empty ls s) : Faithful number ls s := by
  refine Run.invariant (Faithful number) ⟨.empty, .empty, .empty, Nat.zero_le _, Nat.zero_le _⟩ ?_ h
  intro ls r l s hr hstep
  have hrepeats := hr.repeats
  have hcuts := hr.cuts
  refine ⟨hr.ordered.step hstep, hr.kept.step hstep, hr.bounded.step hr.ordered hstep, ?_, ?_⟩
  all_goals
    rw [List.count_append]
    cases hstep with
    | crash =>
      have hflying := toList_length_le r.flying
      have hheld := toList_length_le r.held
      simp only [List.length_append, List.count_singleton_self]
      omega
    | _ => exact Nat.le_add_right_of_le ‹_›

/-- Without a crash nothing is forwarded twice. -/
theorem Faithful.nodup {ls : List Label} (h : Faithful number ls r) (hcrash : .crash ∉ ls) :
    r.cut = [] ∧ r.forwarded.Nodup := by
  have hzero : ls.count .crash = 0 := List.count_eq_zero.mpr hcrash
  have hrepeats := h.repeats
  have hcuts := h.cuts
  rw [hzero] at hrepeats hcuts
  refine ⟨List.eq_nil_of_length_eq_zero (Nat.le_zero.mp hcuts), List.nodup_iff_count_le_one.mpr ?_⟩
  intro p
  have honce := h.bounded.once p
  rw [List.eq_nil_of_length_eq_zero (Nat.le_zero.mp hrepeats)] at honce
  simpa using honce

end Repetition
end Relay
end TwinVoice.Lib

/-! ## Deliveries that count once

Messages are delivered in any order and any number of times. A receiver that
keeps a message the first time, passes over one that it has kept and one that
it cannot keep, has in the end kept those that it can, each once. -/

namespace TwinVoice.Lib.Once

variable {α σ : Type*} {deliver : σ → α → σ} {Keepable : α → Prop} {s : σ}

/-- `Holds kept t`: in the state `t` the receiver has kept the messages `kept`. -/
theorem exists_kept (Holds : List α → σ → Prop) {ds : List α} (init : Holds [] s)
    (first : ∀ kept t a, Holds kept t → (∀ b ∈ kept, b ∈ ds) → a ∈ ds → Keepable a → a ∉ kept →
      Holds (kept ++ [a]) (deliver t a))
    (again : ∀ kept t a, Holds kept t → Keepable a → a ∈ kept → Holds kept (deliver t a))
    (refused : ∀ kept t a, Holds kept t → ¬ Keepable a → Holds kept (deliver t a)) :
    ∃ kept, kept.Nodup ∧ (∀ a, a ∈ kept ↔ a ∈ ds ∧ Keepable a) ∧ Holds kept (ds.foldl deliver s) := by
  suffices h : ∀ es : List α, (∀ a ∈ es, a ∈ ds) → ∃ kept, kept.Nodup ∧ (∀ a, a ∈ kept ↔ a ∈ es ∧ Keepable a) ∧
      Holds kept (es.foldl deliver s) from h ds fun _ ha => ha
  intro es
  induction es using List.reverseRecOn with
  | nil =>
    intro _
    exact ⟨[], List.nodup_nil, by simp, init⟩
  | append_singleton es a ih =>
    intro hes
    obtain ⟨kept, hnodup, hkept, hholds⟩ := ih fun b hb => hes b (List.mem_append_left _ hb)
    have ha : a ∈ ds := hes a (List.mem_append_right _ (List.mem_singleton_self a))
    rw [List.foldl_append]
    show ∃ kept, kept.Nodup ∧ (∀ b, b ∈ kept ↔ b ∈ es ++ [a] ∧ Keepable b) ∧
      Holds kept (deliver (es.foldl deliver s) a)
    by_cases hkeepable : Keepable a
    · by_cases hmem : a ∈ kept
      · refine ⟨kept, hnodup, ?_, again _ _ a hholds hkeepable hmem⟩
        intro b
        rw [hkept, List.mem_append, List.mem_singleton]
        constructor
        · intro hb
          exact ⟨.inl hb.1, hb.2⟩
        · intro hb
          obtain ⟨hb | hb, hkeep⟩ := hb
          · exact ⟨hb, hkeep⟩
          · subst hb
            exact (hkept b).mp hmem
      · have hknown : ∀ b ∈ kept, b ∈ ds := fun b hb => hes b (List.mem_append_left _ ((hkept b).mp hb).1)
        refine ⟨kept ++ [a], ?_, ?_, first _ _ a hholds hknown ha hkeepable hmem⟩
        · refine List.nodup_append.mpr ⟨hnodup, List.nodup_singleton a, ?_⟩
          intro b hb c hc hbc
          rw [List.mem_singleton] at hc
          exact hmem (hc ▸ hbc ▸ hb)
        · intro b
          rw [List.mem_append, List.mem_append, List.mem_singleton, hkept]
          constructor
          · intro hb
            rcases hb with hb | hb
            · exact ⟨.inl hb.1, hb.2⟩
            · exact ⟨.inr hb, hb ▸ hkeepable⟩
          · intro hb
            obtain ⟨hb | hb, hkeep⟩ := hb
            · exact .inl ⟨hb, hkeep⟩
            · exact .inr hb
    · refine ⟨kept, hnodup, ?_, refused _ _ a hholds hkeepable⟩
      intro b
      rw [hkept, List.mem_append, List.mem_singleton]
      constructor
      · intro hb
        exact ⟨.inl hb.1, hb.2⟩
      · intro hb
        obtain ⟨hb | hb, hkeep⟩ := hb
        · exact ⟨hb, hkeep⟩
        · exact absurd (hb ▸ hkeep) hkeepable

end TwinVoice.Lib.Once
