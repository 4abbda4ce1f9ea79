/-!
# Jot — totals

The sum of a measure over a list: the bytes of a text, the line feeds of several pieces.
-/

namespace Jot

/-- The sum of `f` over a list. -/
def total {α : Type} (f : α → Nat) (l : List α) : Nat := l.foldl (fun n a => n + f a) 0

theorem foldl_add_eq_add_total {α : Type} (f : α → Nat) (l : List α) (n : Nat) :
    l.foldl (fun n a => n + f a) n = n + total f l := by
  induction l generalizing n with
  | nil => rfl
  | cons a l ih =>
    rw [total, List.foldl_cons, List.foldl_cons, ih, ih (0 + f a)]
    omega

@[simp] theorem total_nil {α : Type} (f : α → Nat) : total f [] = 0 := rfl

@[simp] theorem total_cons {α : Type} (f : α → Nat) (a : α) (l : List α) :
    total f (a :: l) = f a + total f l := by
  rw [total, List.foldl_cons, foldl_add_eq_add_total]
  omega

@[simp] theorem total_append {α : Type} (f : α → Nat) (l m : List α) :
    total f (l ++ m) = total f l + total f m := by
  rw [total, List.foldl_append, foldl_add_eq_add_total, ← total]

end Jot
