import Mathlib.Data.List.Perm.Basic
import Mathlib.Tactic.Common

namespace Machines

/-!
# Messages in flight

A network is the list of the messages in flight, oldest first; handling message `i` takes it
out with `List.eraseIdx`.  A channel is given by a key of the message, and is first in, first
out when a message is handled only if no earlier one has its key.

* `perm_take` — the message taken and those left are the messages there were;
* `mem_of_mem_take` — what is left was there;
* `rel_of_first` — in an ordered network, the first message of a channel is in order with every
  message of the channel that is left.
-/

variable {μ κ : Type}

/-- A message is taken out of the network. -/
theorem perm_take {net : List μ} {i : Nat} {p : μ} (h : net[i]? = some p) :
    net.Perm (p :: net.eraseIdx i) := by
  obtain ⟨hi, rfl⟩ := List.getElem?_eq_some_iff.mp h
  exact (List.getElem_cons_eraseIdx_perm hi).symm

/-- The other messages were there before. -/
theorem mem_of_mem_take {net : List μ} {i : Nat} {p : μ} (h : p ∈ net.eraseIdx i) : p ∈ net :=
  List.mem_of_mem_eraseIdx h

/-- **First in, first out.** -/
theorem rel_of_first {R : μ → μ → Prop} {key : μ → κ} {net : List μ} {i : Nat} {p q : μ}
    (hR : net.Pairwise R) (hp : net[i]? = some p) (hfirst : ∀ r ∈ net.take i, key r ≠ key p)
    (hq : q ∈ net.eraseIdx i) (hkey : key q = key p) : R p q := by
  obtain ⟨hi, rfl⟩ := List.getElem?_eq_some_iff.mp hp
  rw [List.eraseIdx_eq_take_drop_succ] at hq
  rcases List.mem_append.mp hq with hq | hq
  · exact absurd hkey (hfirst q hq)
  · have hsplit : net = net.take i ++ net[i] :: net.drop (i + 1) := by
      rw [← List.drop_eq_getElem_cons hi, List.take_append_drop]
    rw [hsplit] at hR
    exact List.rel_of_pairwise_cons (List.pairwise_append.mp hR).2.1 hq

end Machines
