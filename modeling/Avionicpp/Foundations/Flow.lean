import Avionicpp.Foundations.Mealy

/-! # What passes through a queue

A machine that keeps a queue: a step appends what enters and takes what leaves from the front, and may lose
some of it. Over a run everything that has left or is still there has entered, in order, and it is all that
has entered if no step loses anything.

A consumer at the end of a queue has taken the front of a text, and of the items that the text is made of
it has all of those whose last piece lies in that front.
-/
namespace Avionicpp.Foundations
set_option autoImplicit false

section
variable {α β φ : Type}

/-- The consumer came from the state `s` to `t` by the front of the text that is not in `pending`. -/
def Consumed (consume : φ → α → φ) (s : φ) (text : List α) (t : φ) (pending : List α) : Prop :=
  ∃ front, front ++ pending = text ∧ t = front.foldl consume s

theorem Consumed.refl (consume : φ → α → φ) (s : φ) (text : List α) :
    Consumed consume s text s text := ⟨[], rfl, rfl⟩

theorem Consumed.trans {consume : φ → α → φ} {s t r : φ} {text middle rest : List α}
    (h : Consumed consume s text t middle) (h' : Consumed consume t middle r rest) :
    Consumed consume s text r rest := by
  obtain ⟨u, rfl, rfl⟩ := h
  obtain ⟨v, rfl, rfl⟩ := h'
  exact ⟨u ++ v, List.append_assoc .., by rw [List.foldl_append]⟩

/-- The first items, as many as are complete in the first `n` places of their text. -/
structure Completed (text : β → List α) (items : List β) (n : ℕ) (made : List β) : Prop where
  front : made <+: items
  within : (made.flatMap text).length ≤ n
  next : ∀ item later, items = made ++ item :: later → n < ((made ++ [item]).flatMap text).length

/-- A front of the text is that of the items complete in it, and a part of the next item. -/
theorem completed_front (text : β → List α) (items : List β) {front : List α}
    (h : front <+: items.flatMap text) :
    ∃ made part, Completed text items front.length made ∧ front = made.flatMap text ++ part ∧
      (part = [] ∨ ∃ item later, items = made ++ item :: later ∧ part <+: text item ∧
        part.length < (text item).length) := by
  induction items generalizing front with
  | nil =>
    obtain rfl := List.prefix_nil.mp h
    exact ⟨[], [], ⟨List.nil_prefix, Nat.le_refl 0, by simp⟩, rfl, Or.inl rfl⟩
  | cons item items ih =>
    rw [List.flatMap_cons] at h
    by_cases hlong : (text item).length ≤ front.length
    · obtain ⟨rest, rfl⟩ := List.prefix_of_prefix_length_le (List.prefix_append _ _) h hlong
      obtain ⟨made, part, ⟨hfront, hwithin, hnext⟩, rfl, hpart⟩ :=
        ih ((List.prefix_append_right_inj _).mp h)
      refine ⟨item :: made, part, ⟨List.cons_prefix_cons.mpr ⟨rfl, hfront⟩, ?_, ?_⟩, ?_, ?_⟩
      · simp
      · rintro x later hsplit
        have hlater := hnext x later (List.cons.inj hsplit).2
        simp only [List.cons_append, List.flatMap_cons, List.length_append] at hlater ⊢
        omega
      · rw [List.flatMap_cons, List.append_assoc]
      · obtain hnone | ⟨x, later, hsplit, hpart⟩ := hpart
        · exact Or.inl hnone
        · exact Or.inr ⟨x, later, by rw [hsplit, List.cons_append], hpart⟩
    · have hpart : front <+: text item :=
        List.prefix_of_prefix_length_le h (List.prefix_append _ _) (by omega)
      refine ⟨[], front, ⟨List.nil_prefix, Nat.zero_le _, ?_⟩, rfl,
        Or.inr ⟨item, items, rfl, hpart, by omega⟩⟩
      rintro x later hsplit
      obtain ⟨rfl, -⟩ := List.cons.inj hsplit
      simpa using Nat.lt_of_not_le hlong

/-- With nothing pending every item is complete. -/
theorem Completed.all {text : β → List α} {items made : List β}
    (h : Completed text items (items.flatMap text).length made) : made = items := by
  obtain ⟨later, hsplit⟩ := h.front
  cases later with
  | nil => rw [← hsplit, List.append_nil]
  | cons item later =>
    have hnext := h.next item later hsplit.symm
    rw [← hsplit] at hnext
    simp only [List.flatMap_append, List.flatMap_cons, List.flatMap_nil, List.length_append,
      List.length_nil] at hnext
    omega

end

namespace Mealy

variable {σ ι ο α : Type}

/-- The books of one step: what leaves and what is still there was there or has entered, in this order.
The rest is lost. -/
def Ordered (M : Mealy σ ι ο) (queue : σ → List α) (entering leaving : ι × ο → List α) : Prop :=
  ∀ s c, (leaving (c, (M.step s c).2) ++ queue (M.step s c).1).Sublist
    (queue s ++ entering (c, (M.step s c).2))

variable {M : Mealy σ ι ο} {queue : σ → List α} {entering leaving : ι × ο → List α}

/-- **The books of a run.** -/
theorem Ordered.run (h : M.Ordered queue entering leaving) (s : σ) (u : List ι) :
    ((M.trace s u).flatMap leaving ++ queue (M.run s u)).Sublist
      (queue s ++ (M.trace s u).flatMap entering) := by
  induction u generalizing s with
  | nil =>
    rw [show M.trace s [] = [] from rfl, List.flatMap_nil, List.flatMap_nil, List.append_nil,
      List.nil_append]
    exact List.Sublist.refl _
  | cons c u ih =>
    rw [trace_cons, List.flatMap_cons, List.flatMap_cons, run_cons, List.append_assoc]
    have hrest := (ih (M.step s c).1).append_left (leaving (c, (M.step s c).2))
    have hstep := (h s c).append_right ((M.trace (M.step s c).1 u).flatMap entering)
    rw [List.append_assoc, List.append_assoc] at hstep
    exact hrest.trans hstep

/-- Nothing is lost in a run if and only if nothing is lost in any of its steps. -/
theorem Ordered.whole_iff (h : M.Ordered queue entering leaving) (s : σ) (u : List ι) :
    (M.trace s u).flatMap leaving ++ queue (M.run s u) =
        queue s ++ (M.trace s u).flatMap entering ↔
      ∀ made c later, u = made ++ c :: later →
        leaving (c, (M.step (M.run s made) c).2) ++ queue (M.step (M.run s made) c).1 =
          queue (M.run s made) ++ entering (c, (M.step (M.run s made) c).2) := by
  induction u generalizing s with
  | nil => exact ⟨fun _ made c later hsplit => by simp at hsplit, fun _ => (List.append_nil _).symm⟩
  | cons c u ih =>
    rw [trace_cons, List.flatMap_cons, List.flatMap_cons, run_cons]
    constructor
    · intro hwhole
      have hlength := congrArg List.length hwhole
      have hfirst := (h s c).length_le
      have hrest := (h.run (M.step s c).1 u).length_le
      simp only [List.length_append] at hlength hfirst hrest
      have hnow := (h s c).eq_of_length (by rw [List.length_append, List.length_append]; omega)
      have hthen := (h.run (M.step s c).1 u).eq_of_length
        (by rw [List.length_append, List.length_append]; omega)
      intro made c' later hsplit
      cases made with
      | nil =>
        obtain ⟨rfl, rfl⟩ := List.cons.inj hsplit
        exact hnow
      | cons x made =>
        obtain ⟨rfl, hlater⟩ := List.cons.inj hsplit
        exact (ih (M.step s c).1).mp hthen made c' later hlater
    · intro hsteps
      have hrest := (ih (M.step s c).1).mpr fun made c' later hsplit =>
        hsteps (c :: made) c' later (congrArg (List.cons c) hsplit)
      have hfirst : leaving (c, (M.step s c).2) ++ queue (M.step s c).1 =
          queue s ++ entering (c, (M.step s c).2) := hsteps [] c u rfl
      rw [List.append_assoc, hrest, ← List.append_assoc, hfirst, List.append_assoc]

/-! ## Items, one after the other -/

/-- The machine is where it was after the item, and has answered it on its last piece only. -/
def AnswersAtEnd (M : Mealy σ ι (Option ο)) (s : σ) (item : List ι) : Prop :=
  M.run s item = s ∧
    ∃ answer, M.outputs s item = List.replicate (item.length - 1) none ++ [some answer]

/-- In the front of a series of items, the machine is where it was behind those that are complete, and
silent from there on. -/
theorem AnswersAtEnd.front {β : Type} {M : Mealy σ ι (Option ο)} {s : σ} {text : β → List ι}
    {items : List β} (h : ∀ item ∈ items, M.AnswersAtEnd s (text item)) {front : List ι}
    (hfront : front <+: items.flatMap text) :
    ∃ made part, Completed text items front.length made ∧ front = made.flatMap text ++ part ∧
      M.run s (made.flatMap text) = s ∧ M.outputs s part = List.replicate part.length none := by
  obtain ⟨made, part, hmade, hsplit, hpart⟩ := completed_front text items hfront
  have hrun : ∀ made : List β, (∀ item ∈ made, M.AnswersAtEnd s (text item)) →
      M.run s (made.flatMap text) = s := by
    intro made hmade
    induction made with
    | nil => rfl
    | cons item made ih =>
      rw [List.flatMap_cons, run_append, (hmade item (List.mem_cons_self ..)).1,
        ih fun x hx => hmade x (List.mem_cons_of_mem item hx)]
  refine ⟨made, part, hmade, hsplit, hrun made fun item hi => h item (hmade.front.subset hi), ?_⟩
  obtain rfl | ⟨item, later, hitems, hin, hlt⟩ := hpart
  · rfl
  · obtain ⟨-, answer, hout⟩ := h item (by rw [hitems]; simp)
    exact silent_front hout hin hlt

end Mealy
end Avionicpp.Foundations
