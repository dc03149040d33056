import Mathlib.Data.List.Forall2
import Skull.Core.Config
import Skull.Lib.Machine

namespace Skull

open Machines

/-!
# Which workflow reads stdin

`_load_workflow` lets one workflow enable stdin.  It looks at the flag of the workflows before when
it comes to a `stdin` key, before it looks at what that key says.

* `loadWorkflowItems_flag` — the flag after the inner loop;
* `loadWorkflowItems_true` — the inner loop when a workflow before enables stdin;
* `loadWorkflowLoop_ok` — a list is loaded when no workflow with a `stdin` key is behind one that
  enables stdin;
* `loadWorkflow_stdin_iff` — when this is what it should be;
* `stdinZero_rejected` — a workflow that says `stdin: 0` is not accepted behind one that enables it.
-/

variable {entries : List (String × CfgNode)} {workflow : WorkflowCfg}

/-- The workflow enables stdin. -/
def EnablesStdin (entries : List (String × CfgNode)) : Prop :=
  ∃ child n, ("stdin", child) ∈ entries ∧ child.getint = .ok n ∧ lowBit n

/-- The workflow has a `stdin` key. -/
def HasStdin (entries : List (String × CfgNode)) : Prop := "stdin" ∈ entries.map Prod.fst

/-- The workflow is accepted on its own. -/
def Acceptable (entries : List (String × CfgNode)) : Prop :=
  (workflowsOf (.array [.mapping entries])).isOk

instance (entries : List (String × CfgNode)) : Decidable (Acceptable entries) :=
  inferInstanceAs (Decidable (_ = true))

/-- At most one workflow of the list enables stdin. -/
def AtMostOneStdin (frames : List (List (String × CfgNode))) : Prop :=
  frames.Pairwise fun f g => ¬(EnablesStdin f ∧ EnablesStdin g)

/-- A frame that enables stdin has the key. -/
theorem EnablesStdin.hasStdin (h : EnablesStdin entries) : HasStdin entries := by
  obtain ⟨child, n, hmem, -⟩ := h
  exact List.mem_map.mpr ⟨_, hmem, rfl⟩

/-! ### One workflow -/

/-- A branch of one computation that is the other one, mapped. -/
theorem ite_map {ε α β : Type} {c : Prop} [Decidable c] {f : α → β} {x y : Except ε α}
    {x' y' : Except ε β} (hx : x' = x.map f) (hy : y' = y.map f) :
    (if c then x' else y') = (if c then x else y).map f := by
  rw [hx, hy, apply_ite (Except.map f)]

/-- Other keys do not depend on the flag, and keep it. -/
theorem loadWorkflowItem_other {key : String} (hkey : key ≠ "stdin") (child : CfgNode)
    (workflow : WorkflowCfg) (flag : Bool) :
    loadWorkflowItem key child (workflow, flag) =
      (loadWorkflowItem key child (workflow, false)).map fun r => (r.1, flag) := by
  simp only [loadWorkflowItem, if_neg hkey]
  -- the branches are those of the source: each reads the child in one way, or not at all
  refine ite_map ?modules (ite_map ?idl (ite_map ?concurrent (ite_map ?port (ite_map ?bind
    (ite_map ?timeout (ite_map ?sockType rfl))))))
  case modules => cases loadModules child workflow <;> rfl
  case idl => cases child.getstring <;> rfl
  case concurrent => cases child.getint <;> rfl
  case port =>
    cases child.getint with
    | error fault => rfl
    | ok port => exact ite_map rfl (ite_map rfl rfl)
  case bind => cases child.getstring <;> rfl
  case timeout => cases child.getint <;> rfl
  case sockType =>
    cases child.getstring with
    | error fault => rfl
    | ok sock => exact ite_map rfl (ite_map rfl rfl)

/-- The branch of the key `stdin`. -/
theorem loadWorkflowItem_stdin (child : CfgNode) (workflow : WorkflowCfg) (flag : Bool) :
    loadWorkflowItem "stdin" child (workflow, flag) =
      child.getint.bind fun n => if flag then .error .stdin
        else .ok ({ workflow with enableStdin := lowBit n }, lowBit n) := by
  rfl

/-- **The flag after a key**: it was raised before, or the key is `stdin` and says so. -/
theorem loadWorkflowItem_flag {key : String} {child : CfgNode} {flag : Bool}
    {r : WorkflowCfg × Bool} (h : loadWorkflowItem key child (workflow, flag) = .ok r) :
    r.2 = true ↔ flag = true ∨ key = "stdin" ∧ ∃ n, child.getint = .ok n ∧ lowBit n := by
  by_cases hkey : key = "stdin"
  · subst hkey
    rw [loadWorkflowItem_stdin] at h
    obtain ⟨n, hn, h⟩ := except_bind_ok.mp h
    cases flag with
    | true => simp at h
    | false =>
      obtain rfl := Except.ok.inj h
      simp [hn]
  · rw [loadWorkflowItem_other hkey] at h
    obtain ⟨r', -, rfl⟩ := except_map_ok.mp h
    simp [hkey]

/-- **The flag after the inner loop.** -/
theorem loadWorkflowItems_flag {flag : Bool} {r : WorkflowCfg × Bool}
    (h : loadWorkflowItems entries (workflow, flag) = .ok r) :
    r.2 = true ↔ flag = true ∨ EnablesStdin entries := by
  induction entries generalizing workflow flag with
  | nil =>
    obtain rfl := Except.ok.inj h
    simp [EnablesStdin]
  | cons e es ih =>
    obtain ⟨r', hitem, hloop⟩ := except_bind_ok.mp h
    rw [ih hloop, loadWorkflowItem_flag hitem]
    constructor
    · rintro ((hflag | ⟨hkey, n, hn, hbit⟩) | ⟨child, n, hmem, hn, hbit⟩)
      · exact .inl hflag
      · exact .inr ⟨e.2, n, by rw [← hkey]; exact .head _, hn, hbit⟩
      · exact .inr ⟨child, n, .tail _ hmem, hn, hbit⟩
    · rintro (hflag | ⟨child, n, hmem, hn, hbit⟩)
      · exact .inl (.inl hflag)
      · rcases List.mem_cons.mp hmem with rfl | hmem
        · exact .inl (.inr ⟨rfl, n, hn, hbit⟩)
        · exact .inr ⟨child, n, hmem, hn, hbit⟩

/-- What the workflow is when it is loaded on its own. -/
def Loads (entries : List (String × CfgNode)) (workflow : WorkflowCfg) : Prop :=
  ∃ flag, loadWorkflowItems entries (createWorkflowCfg, false) = .ok (workflow, flag)

/-- **The inner loop behind a workflow that enables stdin** goes as it would alone, but for a `stdin`
    key, at which it fails. -/
theorem loadWorkflowItems_true (entries : List (String × CfgNode)) (w w' : WorkflowCfg) :
    (∃ flag, loadWorkflowItems entries (w, true) = .ok (w', flag)) ↔
      (∃ flag, loadWorkflowItems entries (w, false) = .ok (w', flag)) ∧ ¬HasStdin entries := by
  induction entries generalizing w with
  | nil =>
    have hnil : ∀ flag, loadWorkflowItems [] (w, flag) = .ok (w, flag) := fun _ => rfl
    simp [hnil, HasStdin]
  | cons e es ih =>
    -- a second `stdin` is an assertion, whatever its value
    by_cases hkey : e.1 = "stdin"
    · have hfail : ¬∃ flag, loadWorkflowItems (e :: es) (w, true) = .ok (w', flag) := by
        rintro ⟨flag, hflag⟩
        obtain ⟨r, hitem, -⟩ := except_bind_ok.mp hflag
        dsimp only at hitem
        rw [hkey, loadWorkflowItem_stdin] at hitem
        obtain ⟨n, -, hn⟩ := except_bind_ok.mp hitem
        simp at hn
      simp [hfail, HasStdin, hkey]
    · -- the other keys neither look at the flag nor change it
      have hstep : ∀ flag, loadWorkflowItems (e :: es) (w, flag) =
          ((loadWorkflowItem e.1 e.2 (w, false)).map fun r => (r.1, flag)) >>=
            loadWorkflowItems es := fun flag => by
        rw [← loadWorkflowItem_other hkey]
        rfl
      have hhas : HasStdin (e :: es) ↔ HasStdin es := by
        simp [HasStdin, Ne.symm hkey]
      rw [hstep true, hstep false, hhas]
      cases loadWorkflowItem e.1 e.2 (w, false) with
      | error fault => simp [Except.map, bind, Except.bind]
      | ok r => exact ih r.1

/-- A frame is acceptable exactly when it loads. -/
theorem acceptable_iff : Acceptable entries ↔ ∃ w, Loads entries w := by
  have h : workflowsOf (.array [.mapping entries]) =
      loadWorkflowItems entries (createWorkflowCfg, false) >>= fun r => .ok [r.1] := rfl
  rw [Acceptable, h]
  simp only [Loads]
  cases loadWorkflowItems entries (createWorkflowCfg, false) with
  | error fault => simp [except_isOk, bind, Except.bind]
  | ok r => exact ⟨fun _ => ⟨r.1, r.2, rfl⟩, fun _ => rfl⟩

/-! ### The list -/

/-- What the inner loop gives with a flag. -/
theorem loadWorkflowItems_iff (flag : Bool) :
    (∃ b, loadWorkflowItems entries (createWorkflowCfg, flag) = .ok (workflow, b)) ↔
      Loads entries workflow ∧ (flag = true → ¬HasStdin entries) := by
  cases flag with
  | true =>
    rw [loadWorkflowItems_true]
    exact ⟨fun h => ⟨h.1, fun _ => h.2⟩, fun h => ⟨h.1, h.2 rfl⟩⟩
  | false => exact ⟨fun h => ⟨h, fun hf => absurd hf (by decide)⟩, fun h => h.1⟩

/-- **The outer loop** loads each workflow as it would be on its own, when none that has a `stdin`
    key is behind one that enables stdin. -/
theorem loadWorkflowLoop_ok {frames : List (List (String × CfgNode))} {flag : Bool}
    {ws : List WorkflowCfg} :
    loadWorkflowLoop (frames.map .mapping) flag = .ok ws ↔
      List.Forall₂ Loads frames ws ∧ (flag = true → ∀ f ∈ frames, ¬HasStdin f) ∧
        frames.Pairwise fun f g => EnablesStdin f → ¬HasStdin g := by
  induction frames generalizing flag ws with
  | nil =>
    have hnil : loadWorkflowLoop ([].map .mapping) flag = .ok [] := rfl
    rw [hnil, List.forall₂_nil_left_iff]
    simp [eq_comm]
  | cons f fs ih =>
    have hstep : loadWorkflowLoop ((f :: fs).map .mapping) flag =
        loadWorkflowItems f (createWorkflowCfg, flag) >>= fun r =>
          (loadWorkflowLoop (fs.map .mapping) r.2).map (r.1 :: ·) := rfl
    rw [hstep, except_bind_ok, List.pairwise_cons]
    constructor
    · rintro ⟨⟨w, b⟩, hf, hrest⟩
      obtain ⟨ws, hfs, rfl⟩ := except_map_ok.mp hrest
      obtain ⟨hloads, hflag⟩ := (loadWorkflowItems_iff flag).mp ⟨b, hf⟩
      obtain ⟨hall, hb, hpair⟩ := ih.mp hfs
      have hb' := loadWorkflowItems_flag hf
      refine ⟨.cons hloads hall, fun h g hg => ?_, fun g hg hen => ?_, hpair⟩
      · -- the flag was set by the frames before it
        rcases List.mem_cons.mp hg with rfl | hg
        · exact hflag h
        · exact hb (hb'.mpr (.inl h)) g hg
      · -- or this frame has set it
        exact hb (hb'.mpr (.inr hen)) g hg
    · rintro ⟨hall, hflag, hbehind, hpair⟩
      obtain ⟨w, ws, hloads, hrest, rfl⟩ := List.forall₂_cons_left_iff.mp hall
      obtain ⟨b, hf⟩ := (loadWorkflowItems_iff flag).mpr ⟨hloads, fun h => hflag h f (.head _)⟩
      refine ⟨(w, b), hf, except_map_ok.mpr ⟨ws, ih.mpr ⟨hrest, fun hb g hg => ?_, hpair⟩, rfl⟩⟩
      -- when the flag is set behind the frame, either of the two has done it
      rcases (loadWorkflowItems_flag hf).mp hb with h | h
      · exact hflag h g (.tail _ hg)
      · exact hbehind g hg h

/-- Of workflows that are accepted alone, a list is accepted when none with a `stdin` key is behind
    one that enables stdin. -/
theorem loadWorkflowLoop_isOk {frames : List (List (String × CfgNode))}
    (halone : ∀ f ∈ frames, Acceptable f) :
    (loadWorkflowLoop (frames.map .mapping) false).isOk ↔
      frames.Pairwise fun f g => EnablesStdin f → ¬HasStdin g := by
  have hall : ∃ ws, List.Forall₂ Loads frames ws := by
    induction frames with
    | nil => exact ⟨[], .nil⟩
    | cons f fs ih =>
      obtain ⟨w, hw⟩ := acceptable_iff.mp (halone f (.head _))
      obtain ⟨ws, hws⟩ := ih fun g hg => halone g (.tail _ hg)
      exact ⟨w :: ws, .cons hw hws⟩
  rw [except_isOk]
  simp only [loadWorkflowLoop_ok, Bool.false_eq_true, false_implies, true_and]
  constructor
  · rintro ⟨ws, -, hpair⟩
    exact hpair
  · obtain ⟨ws, hws⟩ := hall
    intro hpair
    exact ⟨ws, hws, hpair⟩

/-- **When the check is the right one.**  Of workflows that are accepted alone, a list is accepted
    if and only if at most one enables stdin, exactly when no workflow with a `stdin` key is behind
    the only one that enables it. -/
theorem loadWorkflow_stdin_iff (config : SkConfig) (frames : List (List (String × CfgNode)))
    (halone : ∀ f ∈ frames, Acceptable f) :
    ((config.loadWorkflow (.array (frames.map .mapping))).isOk ↔ AtMostOneStdin frames) ↔
      (AtMostOneStdin frames → frames.Pairwise fun f g => EnablesStdin f → ¬HasStdin g) := by
  have hok : (config.loadWorkflow (.array (frames.map .mapping))).isOk ↔
      frames.Pairwise fun f g => EnablesStdin f → ¬HasStdin g := by
    rw [← loadWorkflowLoop_isOk halone, SkConfig.loadWorkflow, workflowsOf]
    cases loadWorkflowLoop (frames.map .mapping) false <;> rfl
  rw [hok]
  have hone : (frames.Pairwise fun f g => EnablesStdin f → ¬HasStdin g) → AtMostOneStdin frames :=
    List.Pairwise.imp fun h hboth => h hboth.1 hboth.2.hasStdin
  exact ⟨fun h => h.mpr, fun h => ⟨hone, h⟩⟩

/-- A workflow of one key, `stdin`. -/
def stdinFrame (text : String) : List (String × CfgNode) :=
  [("stdin", .value { text, py := .int (strtol text) })]

/-- Both frames of the counterexample load on their own. -/
theorem stdinFrame_acceptable :
    ∀ f ∈ [stdinFrame "0", stdinFrame "1"], Acceptable f := by
  intro f hf
  rcases List.mem_pair.mp hf with rfl | rfl <;> decide +kernel

/-- The second one does not enable stdin. -/
theorem stdinFrame_disables : ¬EnablesStdin (stdinFrame "0") := by
  rintro ⟨child, n, hmem, hn, hbit⟩
  obtain rfl := (Prod.mk.inj (List.mem_singleton.mp hmem)).2
  obtain rfl : n = 0 := Except.ok.inj (hn.symm.trans (by decide +kernel))
  exact absurd hbit (by decide)

/-- The workflow that enables stdin may be the last one. -/
theorem stdinZero_accepted :
    ((createConfig.loadWorkflow (.array ([stdinFrame "0", stdinFrame "1"].map .mapping))).isOk ↔
      AtMostOneStdin [stdinFrame "0", stdinFrame "1"]) :=
  (loadWorkflow_stdin_iff createConfig _ stdinFrame_acceptable).mpr fun _ => by
    simp [stdinFrame_disables]

/-- `stdin: 0` behind a workflow that enables stdin is not accepted. -/
theorem stdinZero_rejected :
    ¬((createConfig.loadWorkflow (.array ([stdinFrame "1", stdinFrame "0"].map .mapping))).isOk ↔
      AtMostOneStdin [stdinFrame "1", stdinFrame "0"]) := by
  have hone : AtMostOneStdin [stdinFrame "1", stdinFrame "0"] := by
    simp [AtMostOneStdin, stdinFrame_disables]
  intro h
  exact absurd (h.mpr hone) (by decide +kernel)

end Skull
