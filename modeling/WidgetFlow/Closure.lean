import Std.Data.TreeSet

/-!
# Closures

The elements that can be reached from given ones by repeated steps. The search goes in rounds: a
round takes the steps from the elements that the round before it met first, so every element is
expanded once. After as many rounds as there are elements to expand, nothing new can be met.
-/

namespace WidgetFlow

/-- A search between two rounds: all elements met so far, and those that the last round met first. -/
structure Search (α : Type) [Ord α] where
  met : Std.TreeSet α := {}
  fresh : List α := []

namespace Search

variable {α : Type} [Ord α]

def meet (search : Search α) (element : α) : Search α :=
  if search.met.contains element then search
  else { met := search.met.insert element, fresh := element :: search.fresh }

def meetAll (search : Search α) (elements : List α) : Search α := elements.foldl meet search

/-- One round: takes all steps from the fresh elements. -/
def round (next : α → List α) (search : Search α) : Search α :=
  meetAll { search with fresh := [] } (search.fresh.flatMap next)

/-- Rounds until one meets nothing new, at most the given number. -/
def run (next : α → List α) : Nat → Search α → Search α
  | 0, search => search
  | rounds + 1, search =>
    if search.fresh.isEmpty then search else run next rounds (search.round next)

end Search

/-- The elements reached from `starts` by steps of `next`, the starts included. At most `bound`
rounds are made, so `bound` has to exceed the number of elements that have steps. -/
def closure {α : Type} [Ord α] (next : α → List α) (bound : Nat) (starts : List α) :
    Std.TreeSet α :=
  (Search.run next bound (Search.meetAll {} starts)).met

end WidgetFlow
