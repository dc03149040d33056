import Skull.Service.Policy

namespace Skull

/-!
# The ledger of a readers–writer queue

What went through a queue, in order: `Ledger d pushed pulled` relates the data `d` of a queue
to all elements that were pushed and all that were pulled, each pulled one with the data it
left behind.

* `Ledger.push`, `Ledger.pop` — the two operations of the queue keep the ledger;
* `Ledger.perm` — nothing is lost or pulled twice;
* `Ledger.fifo`, `Ledger.lanes`, `Ledger.writes` — the order of the two policies.
-/

variable {α : Type} [QueueElem α]

/-- The data `d` of a queue agrees with what was pushed and pulled. -/
structure Ledger (d : QueueData α) (pushed : List α) (pulled : List (α × QueueData α)) :
    Prop where
  perm : pushed.Perm (pulled.map Prod.fst ++ d.elems)
  fifo : d.mode = .rwPw → pushed = pulled.map Prod.fst ++ d.elems
  lanes : ∀ k, pushed.filter (elemType · = k) =
    (pulled.map Prod.fst).filter (elemType · = k) ++ d.elems.filter (elemType · = k)
  writes : d.mode = .rwPr → ∀ x ∈ pulled, elemType x.1 = .write →
    ∀ y ∈ x.2.elems, elemType y = .write

namespace Ledger

variable {d d' : QueueData α} {pushed : List α} {pulled : List (α × QueueData α)} {x : α}

/-- A queue that was just created. -/
theorem nil (h : d.elems = []) : Ledger d [] [] where
  perm := by simp [h]
  fifo _ := by simp [h]
  lanes _ := by simp [h]
  writes _ := by simp

/-- A push is entered on one side. -/
theorem push (h : Ledger d pushed pulled) (hd : d.ReadWrite) (hpush : d.Push x d') :
    Ledger d' (pushed ++ [x]) pulled where
  perm := by
    have hx : (pushed ++ [x]).Perm (pulled.map Prod.fst ++ (d.elems ++ [x])) := by
      rw [← List.append_assoc]
      exact h.perm.append_right _
    exact hx.trans (hpush.perm.symm.append_left _)
  fifo hmode := by
    rw [h.fifo (hpush.mode.symm.trans hmode), hpush.elems_rwPw hmode, List.append_assoc]
  lanes k := by rw [List.filter_append, h.lanes k, hpush.filter hd, List.append_assoc]
  writes hmode := h.writes (hpush.mode.symm.trans hmode)

/-- A pop is entered on the other. -/
theorem pop (h : Ledger d pushed pulled) (hd : d.ReadWrite) (hpop : d.Pop x d') :
    Ledger d' pushed (pulled ++ [(x, d')]) where
  perm := by simpa [hpop.elems] using h.perm
  fifo hmode := by simpa [hpop.elems] using h.fifo (hpop.mode.symm.trans hmode)
  lanes k := by
    have hx : d.elems.filter (elemType · = k) =
        ([(x, d')].map Prod.fst).filter (elemType · = k) ++ d'.elems.filter (elemType · = k) := by
      rw [hpop.elems, ← List.filter_append]
      rfl
    rw [h.lanes k, hx, List.map_append, List.filter_append, List.append_assoc]
  writes hmode := by
    have hmode' := hpop.mode.symm.trans hmode
    intro y hy hw
    rcases List.mem_append.mp hy with hy | hy
    · exact h.writes hmode' y hy hw
    · rw [List.mem_singleton.mp hy] at hw ⊢
      exact hpop.write_last hd hmode' hw

end Ledger

end Skull
