import Mathlib.Data.List.Basic
import Mathlib.Data.Nat.Notation

/-! # Acquiring and releasing

The log of what was acquired and released, latest first, and what is held after it. A log is regular
if nothing is acquired while it is held and nothing released that is not; then the numbers of both
differ by what is held.
-/
namespace Avionicpp.Foundations
set_option autoImplicit false

inductive LedgerEvent (α : Type) where
  | acquired (a : α)
  | released (a : α)
  deriving DecidableEq, Repr

abbrev Ledger (α : Type) := List (LedgerEvent α)

namespace Ledger
variable {α : Type} [DecidableEq α]

/-- What was acquired and not yet released. -/
def held : Ledger α → List α
  | [] => []
  | .acquired a :: log => a :: held log
  | .released a :: log => (held log).erase a

def Regular : Ledger α → Prop
  | [] => True
  | .acquired a :: log => a ∉ held log ∧ Regular log
  | .released a :: log => a ∈ held log ∧ Regular log

instance decidableRegular : (log : Ledger α) → Decidable log.Regular
  | [] => inferInstanceAs (Decidable True)
  | .acquired a :: log =>
    have := decidableRegular log
    inferInstanceAs (Decidable (a ∉ held log ∧ Regular log))
  | .released a :: log =>
    have := decidableRegular log
    inferInstanceAs (Decidable (a ∈ held log ∧ Regular log))

def acquisitions (log : Ledger α) : ℕ :=
  log.countP fun e => match e with
    | .acquired _ => true
    | .released _ => false

def releases (log : Ledger α) : ℕ :=
  log.countP fun e => match e with
    | .acquired _ => false
    | .released _ => true

theorem held_nodup (log : Ledger α) (h : log.Regular) : log.held.Nodup := by
  induction log with
  | nil => exact List.nodup_nil
  | cons e log ih =>
    cases e with
    | acquired a => exact List.nodup_cons.mpr ⟨h.1, ih h.2⟩
    | released a => exact (ih h.2).erase a

/-- Every acquisition is released or held. -/
theorem acquisitions_eq (log : Ledger α) (h : log.Regular) :
    log.acquisitions = log.releases + log.held.length := by
  induction log with
  | nil => rfl
  | cons e log ih =>
    cases e with
    | acquired a =>
      have ih' := ih h.2
      simp only [acquisitions, releases, List.countP_cons, held, List.length_cons, if_true,
        Bool.false_eq_true, if_false] at ih' ⊢
      omega
    | released a =>
      have ih' := ih h.2
      have hpos := List.length_pos_of_mem h.1
      have hlen := List.length_erase_of_mem h.1
      simp only [acquisitions, releases, List.countP_cons, held, if_true, Bool.false_eq_true,
        if_false] at ih' ⊢
      omega

end Ledger
end Avionicpp.Foundations
