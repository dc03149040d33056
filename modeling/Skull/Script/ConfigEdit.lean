import Skull.Script.ConfigDump

namespace Skull

open Machines

/-!
# What an edit preserves

The script writes what it knows of a configuration, in its own list of keys, with its own idea of
what need not be written, and with the texts that Python makes of the values:

* `addWorkflow_loads`, `addModule_loads`, `addService_loads` — when a list with the item is loaded;
* `Edit.Edited`, `Edit.apply_edited` — what an edit does to its section;
* `preserves_iff` — an edit preserves the configuration exactly when the file is written as it is
  read and the item fits;
* `diagLog_lost` — a file whose diagnosis log has a name.
-/

variable {entries entries' : List (String × CfgNode)} {node node' : CfgNode} {s : Setting}
  {c c' : SkConfig} {key : String}

namespace ConfigUtils

/-! ### One more workflow -/

/-- One frame more, after the others. -/
theorem forall₂_concat {frames : List (List (String × CfgNode))} {frame : List (String × CfgNode)}
    {ws : List WorkflowCfg} : List.Forall₂ Loads (frames ++ [frame]) ws ↔
      ∃ ws₀ w, List.Forall₂ Loads frames ws₀ ∧ Loads frame w ∧ ws = ws₀ ++ [w] := by
  induction frames generalizing ws with
  | nil =>
    simp only [List.nil_append, List.forall₂_cons_left_iff, List.forall₂_nil_left_iff]
    constructor
    · rintro ⟨w, _, hw, rfl, rfl⟩
      exact ⟨[], w, rfl, hw, rfl⟩
    · rintro ⟨_, w, rfl, hw, rfl⟩
      exact ⟨w, [], hw, rfl, rfl⟩
  | cons f fs ih =>
    rw [List.cons_append]
    simp only [List.forall₂_cons_left_iff, ih]
    constructor
    · rintro ⟨w₁, _, hw₁, ⟨ws₀, w, hws, hw, rfl⟩, rfl⟩
      exact ⟨w₁ :: ws₀, w, ⟨w₁, ws₀, hw₁, hws, rfl⟩, hw, rfl⟩
    · rintro ⟨_, w, ⟨w₁, ws₀, hw₁, hws, rfl⟩, hw, rfl⟩
      exact ⟨w₁, _, hw₁, ⟨ws₀, w, hws, hw, rfl⟩, rfl⟩

/-- The items of a list of workflows that is loaded are mappings. -/
theorem loadWorkflowLoop_frames {items : List CfgNode} {flag : Bool} {ws : List WorkflowCfg}
    (h : loadWorkflowLoop items flag = .ok ws) :
    ∃ frames : List (List (String × CfgNode)), items = frames.map .mapping := by
  induction items generalizing flag ws with
  | nil => exact ⟨[], rfl⟩
  | cons item items ih =>
    cases item with
    | mapping frame =>
      obtain ⟨r, -, hrest⟩ := except_bind_ok.mp h
      obtain ⟨ws', hws', -⟩ := except_bind_ok.mp hrest
      obtain ⟨frames, rfl⟩ := ih hws'
      exact ⟨frame :: frames, rfl⟩
    | value v => exact absurd h (by simp [loadWorkflowLoop])
    | array items => exact absurd h (by simp [loadWorkflowLoop])

/-- **One more workflow** that has a `stdin` key is loaded when it would be alone and no other one
    enables stdin. -/
theorem addWorkflow_loads {items : List CfgNode} {frame : List (String × CfgNode)}
    (hstdin : HasStdin frame) (ws' : List WorkflowCfg) :
    loadWorkflowLoop (items ++ [.mapping frame]) false = .ok ws' ↔
      ∃ ws w, loadWorkflowLoop items false = .ok ws ∧ Loads frame w ∧ ws' = ws ++ [w] ∧
        ∀ f, CfgNode.mapping f ∈ items → ¬EnablesStdin f := by
  -- the items are mappings, or nothing is loaded
  by_cases hframes : ∃ frames : List (List (String × CfgNode)), items = frames.map .mapping
  · obtain ⟨frames, rfl⟩ := hframes
    have happend : frames.map CfgNode.mapping ++ [.mapping frame] =
        (frames ++ [frame]).map .mapping := by simp
    have hmem : ∀ f, CfgNode.mapping f ∈ frames.map CfgNode.mapping ↔ f ∈ frames := by simp
    simp only [happend, loadWorkflowLoop_ok, forall₂_concat, hmem, Bool.false_eq_true,
      false_implies, true_and, List.pairwise_append, List.pairwise_singleton, List.mem_singleton,
      forall_eq]
    constructor
    · rintro ⟨⟨ws, w, hws, hw, rfl⟩, hpair, hno⟩
      exact ⟨ws, w, ⟨hws, hpair⟩, hw, rfl, fun f hf hen => hno f hf hen hstdin⟩
    · rintro ⟨ws, w, ⟨hws, hpair⟩, hw, rfl, hno⟩
      exact ⟨⟨ws, w, hws, hw, rfl⟩, hpair, fun f hf hen => absurd hen (hno f hf)⟩
  · constructor
    · intro h
      obtain ⟨frames', hmap⟩ := loadWorkflowLoop_frames h
      obtain ⟨frames, -, -, rfl, -⟩ := List.append_eq_map_iff.mp hmap
      exact absurd ⟨frames, rfl⟩ hframes
    · rintro ⟨ws, -, h, -⟩
      exact absurd (loadWorkflowLoop_frames h) hframes

/-- A key of a workflow keeps the flag of stdin in step with the flag of the loop. -/
theorem loadWorkflowItem_enable {child : CfgNode} {w : WorkflowCfg} {flag : Bool}
    {r : WorkflowCfg × Bool} (h : loadWorkflowItem key child (w, flag) = .ok r)
    (hw : w.enableStdin = flag) : r.1.enableStdin = r.2 := by
  by_cases hkey : key = "stdin"
  · subst hkey
    rw [loadWorkflowItem_stdin] at h
    obtain ⟨n, -, h⟩ := except_bind_ok.mp h
    split at h
    · exact absurd h (by simp)
    · rw [← Except.ok.inj h]
  · simp only [loadWorkflowItem, if_neg hkey] at h
    -- the other keys write other parts of the workflow
    split_ifs at h
    · obtain ⟨w', hmods, h⟩ := except_bind_ok.mp h
      rw [← Except.ok.inj h, ← hw]
      cases child with
      | array items =>
        obtain ⟨ms, -, rfl⟩ := except_map_ok.mp hmods
        rfl
      | value v =>
        rw [← Except.ok.inj hmods]
      | mapping es =>
        rw [← Except.ok.inj hmods]
    · obtain ⟨_, -, h⟩ := except_bind_ok.mp h
      rw [← Except.ok.inj h, ← hw]
    · obtain ⟨_, -, h⟩ := except_bind_ok.mp h
      rw [← Except.ok.inj h, ← hw]
    · obtain ⟨_, -, h⟩ := except_bind_ok.mp h
      split_ifs at h <;> rw [← Except.ok.inj h, ← hw]
    · obtain ⟨_, -, h⟩ := except_bind_ok.mp h
      rw [← Except.ok.inj h, ← hw]
    · obtain ⟨_, -, h⟩ := except_bind_ok.mp h
      rw [← Except.ok.inj h, ← hw]
    · obtain ⟨_, -, h⟩ := except_bind_ok.mp h
      split_ifs at h <;> rw [← Except.ok.inj h, ← hw]
    · rw [← Except.ok.inj h, ← hw]

/-- **A workflow enables stdin** exactly when it is loaded so. -/
theorem enablesStdin_iff {frame : List (String × CfgNode)} {w : WorkflowCfg} (h : Loads frame w) :
    EnablesStdin frame ↔ w.enableStdin = true := by
  have hstep : ∀ (es : List (String × CfgNode)) (w₀ w' : WorkflowCfg) (flag flag' : Bool),
      w₀.enableStdin = flag → loadWorkflowItems es (w₀, flag) = .ok (w', flag') →
        w'.enableStdin = flag' := by
    intro es
    induction es with
    | nil =>
      intro w₀ w' flag flag' hw hok
      obtain ⟨rfl, rfl⟩ := Prod.mk.inj (Except.ok.inj hok)
      exact hw
    | cons e es ih =>
      intro w₀ w' flag flag' hw hok
      obtain ⟨r, hitem, hrest⟩ := except_bind_ok.mp hok
      exact ih r.1 w' r.2 flag' (loadWorkflowItem_enable hitem hw) hrest
  obtain ⟨flag, hload⟩ := h
  have hflag := loadWorkflowItems_flag hload
  rw [hstep frame createWorkflowCfg w false flag rfl hload]
  simpa using hflag.symm

/-- No workflow of a list enables stdin when none is loaded so. -/
theorem noStdin_iff {items : List CfgNode} {ws : List WorkflowCfg}
    (h : loadWorkflowLoop items false = .ok ws) :
    (∀ f, CfgNode.mapping f ∈ items → ¬EnablesStdin f) ↔ ∀ w ∈ ws, w.enableStdin = false := by
  obtain ⟨frames, rfl⟩ := loadWorkflowLoop_frames h
  have hws := (loadWorkflowLoop_ok.mp h).1
  clear h
  induction hws with
  | nil => simp
  | @cons f w fs ws hw _ ih =>
    have hmem : ∀ g, CfgNode.mapping g ∈ (f :: fs).map CfgNode.mapping ↔ g = f ∨
        CfgNode.mapping g ∈ fs.map CfgNode.mapping := by simp
    simp only [hmem, forall_eq_or_imp, ih, enablesStdin_iff hw, List.mem_cons, Bool.not_eq_true]

/-! ### One more module -/

/-- A workflow with one more module. -/
def withModule (m : ModuleCfg) (w : WorkflowCfg) : WorkflowCfg :=
  { w with modules := w.modules ++ [m] }

/-- Other keys do not look at the modules. -/
theorem loadWorkflowItem_withModule (hkey : key ≠ "modules") (child : CfgNode) (m : ModuleCfg)
    (w : WorkflowCfg) (flag : Bool) :
    loadWorkflowItem key child (withModule m w, flag) =
      (loadWorkflowItem key child (w, flag)).map fun r => (withModule m r.1, r.2) := by
  simp only [loadWorkflowItem, if_neg hkey]
  -- the branches are those of the source: each reads the child in one way, or not at all
  refine ite_map ?idl (ite_map ?concurrent (ite_map ?port (ite_map ?stdin (ite_map ?bind
    (ite_map ?timeout (ite_map ?sockType rfl))))))
  case idl => cases child.getstring <;> rfl
  case concurrent => cases child.getint <;> rfl
  case port =>
    cases child.getint with
    | error fault => rfl
    | ok port => exact ite_map rfl (ite_map rfl rfl)
  case stdin =>
    cases child.getint with
    | error fault => rfl
    | ok n => exact ite_map rfl rfl
  case bind => cases child.getstring <;> rfl
  case timeout => cases child.getint <;> rfl
  case sockType =>
    cases child.getstring with
    | error fault => rfl
    | ok sock => exact ite_map rfl (ite_map rfl rfl)

/-- One module more is loaded after those that the other items make. -/
theorem loadWorkflowItems_withModule {es : List (String × CfgNode)}
    (h : "modules" ∉ es.map Prod.fst) (m : ModuleCfg) (w : WorkflowCfg) (flag : Bool) :
    loadWorkflowItems es (withModule m w, flag) =
      (loadWorkflowItems es (w, flag)).map fun r => (withModule m r.1, r.2) := by
  induction es generalizing w flag with
  | nil => rfl
  | cons e es ih =>
    obtain ⟨hne, hes⟩ := not_or.mp (fun hor => h (List.mem_cons.mpr hor))
    have hstep : ∀ r, loadWorkflowItems (e :: es) r =
        loadWorkflowItem e.1 e.2 r >>= loadWorkflowItems es := fun _ => rfl
    rw [hstep, hstep, loadWorkflowItem_withModule (Ne.symm hne)]
    cases loadWorkflowItem e.1 e.2 (w, flag) with
    | error fault => rfl
    | ok r => exact ih hes r.1 r.2

/-- An entry, with those before and behind it. -/
theorem split_entry {es : List (String × CfgNode)} (hnodup : (es.map Prod.fst).Nodup)
    (h : Dict.getEntry key es = some node) :
    ∃ as bs, es = as ++ (key, node) :: bs ∧ key ∉ bs.map Prod.fst ∧
      ∀ node', Dict.setEntry key node' es = as ++ (key, node') :: bs := by
  induction es with
  | nil => exact absurd h (by simp [Dict.getEntry])
  | cons e es ih =>
    obtain ⟨he, hes⟩ := List.nodup_cons.mp hnodup
    by_cases hk : e.1 = key
    · have hnode : e.2 = node := by simpa [Dict.getEntry, hk] using h
      subst hk hnode
      exact ⟨[], es, rfl, he, fun node' => by simp [Dict.setEntry]⟩
    · obtain ⟨as, bs, hsplit, hbs, hset⟩ := ih hes (by simpa [Dict.getEntry, hk] using h)
      exact ⟨e :: as, bs, by rw [hsplit]; rfl, hbs, fun node' => by
        simp [Dict.setEntry, hk, hset node']⟩

/-- **One more module in a workflow** is loaded when the module is. -/
theorem loads_addModule {frame : List (String × CfgNode)} {items : List CfgNode} {x : CfgNode}
    (hnodup : (frame.map Prod.fst).Nodup)
    (hget : Dict.getEntry "modules" frame = some (.array items)) {w' : WorkflowCfg} :
    Loads (Dict.setEntry "modules" (.array (items ++ [x])) frame) w' ↔
      ∃ w m, Loads frame w ∧ loadModule x = .ok m ∧ w' = withModule m w := by
  obtain ⟨as, bs, rfl, hbs, hset⟩ := split_entry hnodup hget
  -- the loader goes through the items before, the modules, and the items after
  have hload : ∀ arr : List CfgNode,
      loadWorkflowItems (as ++ ("modules", .array arr) :: bs) (createWorkflowCfg, false) =
        loadWorkflowItems as (createWorkflowCfg, false) >>= fun r => arr.mapM loadModule >>=
          fun ms => loadWorkflowItems bs ({ r.1 with modules := r.1.modules ++ ms }, r.2) := by
    intro arr
    rw [loadWorkflowItems, List.foldlM_append]
    congr 1
    funext r
    show (do
      let workflow ← (arr.mapM loadModule).map _
      Except.ok (workflow, r.2)) >>= loadWorkflowItems bs = _
    cases arr.mapM loadModule <;> rfl
  have hmap : (items ++ [x]).mapM loadModule =
      items.mapM loadModule >>= fun ms => (loadModule x).map fun m => ms ++ [m] := by
    rw [List.mapM_append]
    cases items.mapM loadModule with
    | error fault => rfl
    | ok ms => cases hx : loadModule x <;> simp [hx, bind, Except.bind, Except.map, pure, Except.pure]
  rw [hset, Loads, hload, hmap]
  simp only [Loads, hload]
  cases loadWorkflowItems as (createWorkflowCfg, false) with
  | error fault => simp [bind, Except.bind]
  | ok r =>
    cases items.mapM loadModule with
    | error fault => simp [bind, Except.bind]
    | ok ms =>
      cases loadModule x with
      | error fault => simp [bind, Except.bind, Except.map]
      | ok m =>
        -- the items after do not look at the modules
        have hwith := loadWorkflowItems_withModule hbs m { r.1 with modules := r.1.modules ++ ms } r.2
        rw [withModule, List.append_assoc] at hwith
        show (∃ flag, loadWorkflowItems bs ({ r.1 with modules := r.1.modules ++ (ms ++ [m]) }, r.2) =
          .ok (w', flag)) ↔ ∃ w m', (∃ flag, loadWorkflowItems bs
            ({ r.1 with modules := r.1.modules ++ ms }, r.2) = .ok (w, flag)) ∧
              Except.ok m = .ok m' ∧ w' = withModule m' w
        rw [hwith]
        cases loadWorkflowItems bs ({ r.1 with modules := r.1.modules ++ ms }, r.2) with
        | error fault => simp [Except.map]
        | ok t =>
          constructor
          · rintro ⟨flag, hflag⟩
            obtain ⟨rfl, rfl⟩ := Prod.mk.inj (Except.ok.inj hflag)
            exact ⟨t.1, m, ⟨t.2, rfl⟩, rfl, rfl⟩
          · rintro ⟨w, m', ⟨flag, hflag⟩, hm, rfl⟩
            obtain rfl := Except.ok.inj hm
            obtain rfl := Except.ok.inj hflag
            exact ⟨flag, rfl⟩

/-- One more module does not matter for stdin. -/
theorem stdin_setEntry {frame : List (String × CfgNode)} (hne : key ≠ "stdin") (node : CfgNode)
    (hnodup : (frame.map Prod.fst).Nodup) (hget : Dict.getEntry key frame ≠ none) :
    (EnablesStdin (Dict.setEntry key node frame) ↔ EnablesStdin frame) ∧
      (HasStdin (Dict.setEntry key node frame) ↔ HasStdin frame) := by
  obtain ⟨old, hold⟩ := Option.ne_none_iff_exists'.mp hget
  obtain ⟨as, bs, rfl, -, hset⟩ := split_entry hnodup hold
  rw [hset]
  constructor
  · simp [EnablesStdin, Ne.symm hne]
  · simp [HasStdin, Ne.symm hne]

/-- A workflow in the list that is loaded with one more module. -/
theorem forall₂_set {frames : List (List (String × CfgNode))} {ws' : List WorkflowCfg}
    {frame frame' : List (String × CfgNode)} {x : CfgNode} {i : Nat}
    (hi : frames[i]? = some frame)
    (hloads : ∀ w', Loads frame' w' ↔
      ∃ w m, Loads frame w ∧ loadModule x = .ok m ∧ w' = withModule m w) :
    List.Forall₂ Loads (frames.set i frame') ws' ↔
      ∃ ws m, List.Forall₂ Loads frames ws ∧ loadModule x = .ok m ∧
        ws' = ws.modify i (withModule m) := by
  induction frames generalizing i ws' with
  | nil => exact absurd hi (by simp)
  | cons f fs ih =>
    cases i with
    | zero =>
      -- the workflow that is changed; those after it are loaded as before
      obtain rfl : f = frame := by simpa using hi
      rw [List.set_cons_zero, List.forall₂_cons_left_iff]
      constructor
      · rintro ⟨w', ws, hw', hws, rfl⟩
        obtain ⟨w, m, hw, hm, rfl⟩ := (hloads w').mp hw'
        exact ⟨w :: ws, m, .cons hw hws, hm, rfl⟩
      · rintro ⟨_, m, hws, hm, rfl⟩
        obtain ⟨w, ws, hw, hws', rfl⟩ := List.forall₂_cons_left_iff.mp hws
        exact ⟨_, ws, (hloads _).mpr ⟨w, m, hw, hm, rfl⟩, hws', rfl⟩
    | succ i =>
      rw [List.set_cons_succ, List.forall₂_cons_left_iff]
      simp only [ih (by simpa using hi)]
      constructor
      · rintro ⟨w, _, hw, ⟨ws, m, hws, hm, rfl⟩, rfl⟩
        exact ⟨w :: ws, m, .cons hw hws, hm, rfl⟩
      · rintro ⟨_, m, hws, hm, rfl⟩
        obtain ⟨w, ws, hw, hws', rfl⟩ := List.forall₂_cons_left_iff.mp hws
        exact ⟨w, _, hw, ⟨ws, m, hws', hm, rfl⟩, rfl⟩

/-- The items are mappings when they are with another mapping in one place. -/
theorem frames_of_set {items : List CfgNode} {frame frame' : List (String × CfgNode)} {i : Nat}
    (hi : items[i]? = some (.mapping frame)) {frames' : List (List (String × CfgNode))}
    (h : items.set i (.mapping frame') = frames'.map .mapping) :
    ∃ frames : List (List (String × CfgNode)), items = frames.map .mapping := by
  refine ⟨frames'.set i frame, ?_⟩
  obtain ⟨hlt, hget⟩ := List.getElem?_eq_some_iff.mp hi
  rw [List.map_set, ← h, List.set_set, ← hget, List.set_getElem_self]

/-- **One more module** is loaded when it would be alone. -/
theorem addModule_loads {items arr : List CfgNode} {frame : List (String × CfgNode)} {i : Nat}
    (hi : items[i]? = some (.mapping frame)) (hnodup : (frame.map Prod.fst).Nodup)
    (hget : Dict.getEntry "modules" frame = some (.array arr)) (x : CfgNode)
    (ws' : List WorkflowCfg) :
    loadWorkflowLoop
        (items.set i (.mapping (Dict.setEntry "modules" (.array (arr ++ [x])) frame))) false =
        .ok ws' ↔
      ∃ ws m, loadWorkflowLoop items false = .ok ws ∧ loadModule x = .ok m ∧
        ws' = ws.modify i (withModule m) := by
  by_cases hframes : ∃ frames : List (List (String × CfgNode)), items = frames.map .mapping
  · obtain ⟨frames, rfl⟩ := hframes
    have hi' : frames[i]? = some frame := by simpa using hi
    obtain ⟨hen, hhas⟩ := stdin_setEntry (by decide : "modules" ≠ "stdin") (.array (arr ++ [x]))
      hnodup (by rw [hget]; exact Option.some_ne_none _)
    -- the flags of the workflows are as before
    have hflags : ∀ fs : List (List (String × CfgNode)),
        (fs.Pairwise fun f g => EnablesStdin f → ¬HasStdin g) ↔
          (fs.map fun f => (EnablesStdin f, HasStdin f)).Pairwise fun p q => p.1 → ¬q.2 :=
      fun fs => by rw [List.pairwise_map]
    have hpair : ((frames.set i (Dict.setEntry "modules" (.array (arr ++ [x])) frame)).Pairwise
        fun f g => EnablesStdin f → ¬HasStdin g) ↔
        frames.Pairwise fun f g => EnablesStdin f → ¬HasStdin g := by
      obtain ⟨hlt, hframe⟩ := List.getElem?_eq_some_iff.mp hi'
      have hself : frames.set i frame = frames := by rw [← hframe, List.set_getElem_self]
      rw [hflags, List.map_set, hen, hhas]
      have hmap := List.map_set (f := fun f => (EnablesStdin f, HasStdin f)) (l := frames) (i := i)
        (a := frame)
      rw [hself] at hmap
      rw [← hmap, ← hflags]
    rw [← List.map_set, loadWorkflowLoop_ok, forall₂_set hi' fun w' => loads_addModule hnodup hget,
      hpair]
    simp only [loadWorkflowLoop_ok, Bool.false_eq_true, false_implies, true_and]
    constructor
    · rintro ⟨⟨ws, m, hws, hm, rfl⟩, hno⟩
      exact ⟨ws, m, ⟨hws, hno⟩, hm, rfl⟩
    · rintro ⟨ws, m, ⟨hws, hno⟩, hm, rfl⟩
      exact ⟨⟨ws, m, hws, hm, rfl⟩, hno⟩
  · constructor
    · intro h
      obtain ⟨frames', hmap⟩ := loadWorkflowLoop_frames h
      exact absurd (frames_of_set hi hmap) hframes
    · rintro ⟨ws, -, h, -⟩
      exact absurd (loadWorkflowLoop_frames h) hframes

theorem splitColon_ne_nil (cs : List Char) : splitColon cs ≠ [] := by
  cases cs with
  | nil => simp [splitColon]
  | cons c cs =>
    rw [splitColon]
    split
    · simp
    · split <;> simp

/-- A text with a colon has two tokens. -/
theorem two_le_splitColon {cs : List Char} (h : ':' ∈ cs) : 2 ≤ (splitColon cs).length := by
  induction cs with
  | nil => exact absurd h List.not_mem_nil
  | cons c cs ih =>
    rw [splitColon]
    by_cases hc : c = ':'
    · have hpos := List.length_pos_iff.mpr (splitColon_ne_nil cs)
      rw [if_pos hc, List.length_cons]
      omega
    · have hrest := ih ((List.mem_cons.mp h).resolve_left (Ne.symm hc))
      rw [if_neg hc]
      cases hsplit : splitColon cs with
      | nil => exact absurd hsplit (splitColon_ne_nil cs)
      | cons piece pieces =>
        rw [hsplit] at hrest
        exact hrest

/-- The text of a module is one when it is not too long. -/
theorem loadModule_moduleText (name type : String) :
    (∃ m, loadModule (pyNode (.str (moduleText name type))) = .ok m) ↔
      (moduleText name type).length < configValueMaxlen := by
  have hcolon : ':' ∈ (moduleText name type).toList := by simp [moduleText]
  have htokens : 2 ≤ (colonTokens (moduleText name type)).length := by
    rw [colonTokens, List.length_map]
    exact two_le_splitColon hcolon
  by_cases hlen : configValueMaxlen ≤ (moduleText name type).length
  · have hload : loadModule (pyNode (.str (moduleText name type))) = .error .module := if_pos hlen
    simp [hload, Nat.not_lt.mpr hlen]
  · obtain ⟨t₁, rest, hrest⟩ := List.exists_cons_of_length_pos (Nat.zero_lt_of_lt htokens)
    obtain ⟨t₂, more, hmore⟩ := List.exists_cons_of_length_pos (l := rest) (by
      rw [hrest, List.length_cons] at htokens
      exact Nat.le_of_succ_le_succ htokens)
    have hload : loadModule (pyNode (.str (moduleText name type))) = .ok { name := t₁, type := t₂ } := by
      simp only [loadModule, pyNode, PyValue.dump, if_neg hlen, hrest, hmore]
    simp [hload, Nat.lt_of_not_le hlen]

/-! ### One more service -/

/-- **The services are loaded** when each of them is, and the table has them. -/
theorem loadServiceLoop_iff {services : List (String × CfgNode)}
    (hnodup : (services.map Prod.fst).Nodup) (table : String → Option ServiceCfg) :
    loadServiceLoop services (fun _ => none) = .ok table ↔ ∀ n,
      match Dict.getEntry n services with
      | none => table n = none
      | some node => ∃ service, loadService node = .ok service ∧ table n = some service := by
  constructor
  · -- the table has what is at each key
    intro h n
    obtain ⟨hnone, hsome⟩ := Setting.loadServiceLoop_get hnodup h n
    cases hget : Dict.getEntry n services with
    | none => exact hnone hget
    | some node => exact hsome node hget
  · -- each service can be loaded, so all of them are
    intro h
    have heach : ∀ e ∈ services, ∃ service, loadService e.2 = .ok service := by
      intro e he
      have hn := h e.1
      rw [Dict.getEntry_of_mem hnodup he] at hn
      obtain ⟨service, hservice, -⟩ := hn
      exact ⟨service, hservice⟩
    obtain ⟨table', htable'⟩ := Setting.loadServiceLoop_total heach fun _ => none
    -- the two tables are the same at each name
    rw [htable']
    refine congrArg Except.ok (funext fun n => ?_)
    obtain ⟨hnone, hsome⟩ := Setting.loadServiceLoop_get hnodup htable' n
    have hn := h n
    cases hget : Dict.getEntry n services with
    | none =>
      rw [hget] at hn
      exact (hnone hget).trans hn.symm
    | some node =>
      rw [hget] at hn
      obtain ⟨service, hservice, hentry⟩ := hn
      obtain ⟨service', hservice', hentry'⟩ := hsome node hget
      rw [hentry, hentry', Except.ok.inj (hservice'.symm.trans hservice)]

/-- **One more service** in the table of the services `services`, from those that `written` has at the
    other names. -/
theorem addService_loads {services written : List (String × CfgNode)}
    {table : String → Option ServiceCfg} (hnodup : (services.map Prod.fst).Nodup)
    (hnodup' : (written.map Prod.fst).Nodup)
    (hkeys : ∀ n, Dict.getEntry n written = none ↔ Dict.getEntry n services = none)
    (h : loadServiceLoop services (fun _ => none) = .ok table) (name : String) (node : CfgNode)
    (service : ServiceCfg) :
    loadServiceLoop (Dict.setEntry name node written) (fun _ => none) =
        .ok (fun n => if n = name then some service else table n) ↔
      loadService node = .ok service ∧ ∀ n old new, n ≠ name →
        Dict.getEntry n services = some old → Dict.getEntry n written = some new →
          loadService new = loadService old := by
  have hold := (loadServiceLoop_iff hnodup table).mp h
  rw [loadServiceLoop_iff (Dict.nodup_setEntry written hnodup')]
  constructor
  · -- the table that is loaded says what each of the nodes is
    intro hall
    refine ⟨?_, fun n old new hn hget hget' => ?_⟩
    · have hname := hall name
      rw [Dict.getEntry_setEntry, if_pos rfl] at hname
      obtain ⟨service', hservice', heq⟩ := hname
      rw [if_pos rfl] at heq
      rw [hservice', Option.some.inj heq]
    · have hnew := hall n
      -- the service was in the table before
      have hn' := hold n
      rw [Dict.getEntry_setEntry, if_neg hn, hget'] at hnew
      rw [hget] at hn'
      obtain ⟨s₁, hs₁, h₁⟩ := hn'
      obtain ⟨s₂, hs₂, h₂⟩ := hnew
      rw [if_neg hn, h₁] at h₂
      rw [hs₁, hs₂, Option.some.inj h₂]
  · -- the new service, and the others
    rintro ⟨hservice, hsame⟩ n
    rw [Dict.getEntry_setEntry]
    by_cases hn : n = name
    · rw [if_pos hn]
      exact ⟨service, hservice, if_pos hn⟩
    · rw [if_neg hn]
      have hn' := hold n
      cases hget : Dict.getEntry n written with
      | none =>
        rw [(hkeys n).mp hget] at hn'
        exact (if_neg hn).trans hn'
      -- a name that is written was there before
      | some new =>
        obtain ⟨old, hold'⟩ := Option.ne_none_iff_exists'.mp fun hnone =>
          absurd ((hkeys n).mpr hnone) (by rw [hget]; simp)
        rw [hold'] at hn'
        obtain ⟨s₁, hs₁, h₁⟩ := hn'
        exact ⟨s₁, (hsame n old new hn hold' hget).trans hs₁, (if_neg hn).trans h₁⟩

/-- The item of a service is one when its data mode is. -/
theorem loadService_serviceObj (enable : PyValue) (dataMode language : String) :
    (∃ service, loadService (.mapping (serviceObj enable dataMode language)) = .ok service) ↔
      dataMode = "rw-pr" ∨ dataMode = "rw-pw" := by
  have htype : ∀ r, loadServiceItem "type" (pyNode (.str language)) r =
      .ok ({ r.1 with type := some language }, r.2) := fun _ => rfl
  have henable : ∀ r, loadServiceItem "enable" (pyNode enable) r =
      .ok ({ r.1 with enable := enable.dump.toLower = "true" }, r.2) := fun _ => rfl
  have hitem : ∀ r, loadServiceItem "data_mode" (pyNode (.str dataMode)) r =
      (loadServiceDataMode (pyNode (.str dataMode))).map fun mode =>
        ({ r.1 with dataMode := mode }, true) :=
    fun r => by
      show loadServiceDataMode (pyNode (.str dataMode)) >>= _ = _
      cases loadServiceDataMode (pyNode (.str dataMode)) <;> rfl
  have hmode : (∃ mode, loadServiceDataMode (pyNode (.str dataMode)) = .ok mode) ↔
      dataMode = "rw-pr" ∨ dataMode = "rw-pw" := by
    have hread : loadServiceDataMode (pyNode (.str dataMode)) =
        if dataMode = "rw-pr" then .ok .rwPr
        else if dataMode = "rw-pw" then .ok .rwPw else .error .dataMode := rfl
    rw [hread]
    split_ifs with hpr hpw <;> simp_all
  rw [← hmode, loadService, serviceObj]
  simp only [List.foldlM_cons, List.foldlM_nil, htype, henable, hitem, bind, Except.bind]
  cases loadServiceDataMode (pyNode (.str dataMode)) <;> simp [Except.map, pure, Except.pure]

/-! ### The edits -/

/-- The item of a workflow is read back as it is. -/
theorem dumped_workflowFrame (concurrency : Int) (idl : String) (port stdin : Int) :
    dumped (.mapping (workflowFrame concurrency idl port stdin)) =
      .mapping (workflowFrame concurrency idl port stdin) := by
  rw [workflowFrame]
  split
  · rfl
  · split <;> rfl

/-- The workflows of a list. -/
theorem load_array {items : List CfgNode} {d : SkConfig} :
    Setting.workflows.load createConfig (.array items) = .ok d ↔
      ∃ ws, loadWorkflowLoop items false = .ok ws ∧ d = { createConfig with workflows := ws } := by
  show (loadWorkflowLoop items false).map _ = _ ↔ _
  rw [except_map_ok]
  exact exists_congr fun ws => and_congr_right fun _ => eq_comm

/-- The services of a mapping. -/
theorem load_mapping {services : List (String × CfgNode)} {d : SkConfig} :
    Setting.services.load createConfig (.mapping services) = .ok d ↔
      ∃ table, loadServiceLoop services (fun _ => none) = .ok table ∧
        d = { createConfig with services := table } := by
  show (loadServiceLoop services _).map _ = _ ↔ _
  rw [except_map_ok]
  exact exists_congr fun table => and_congr_right fun _ => eq_comm

/-- A list of workflows is dumped as it is read exactly when it loads the same. -/
theorem dumpsAs_array {items : List CfgNode} {ws : List WorkflowCfg}
    (h : loadWorkflowLoop items false = .ok ws) :
    DumpsAs .workflows (.array items) ↔ loadWorkflowLoop (items.map dumped) false = .ok ws := by
  have hold : Setting.workflows.load createConfig (.array items) =
      .ok { createConfig with workflows := ws } := load_array.mpr ⟨ws, h, rfl⟩
  have hdump : dumped (.array items) = .array (items.map dumped) := by
    rw [dumped, dumpedItems_eq]
  rw [DumpsAs, hold, hdump, load_array]
  constructor
  · rintro ⟨ws', hws', heq⟩
    rwa [show ws = ws' from congrArg SkConfig.workflows heq]
  · exact fun hws => ⟨ws, hws, rfl⟩

namespace Edit

variable {edit : Edit}

/-- **What an edit does to its section**: it is true for Python, and what is read back of it is the
    section with the item exactly when what was there is dumped as it is read and the item fits. -/
structure Edited (edit : Edit) (entries entries' : List (String × CfgNode)) (c : SkConfig)
    (node' : CfgNode) : Prop where
  set : entries' = Dict.setEntry edit.target.key node' entries
  truthy : truthy node' = true
  loads : edit.KeptThere entries → edit.Fits entries →
    ∃ d, edit.target.load createConfig (dumped node') = .ok d ∧
      ∀ c', edit.target.SameAt d c' → edit.other.SameAt c c' → edit.Added c c'
  back : ∀ d, edit.target.load createConfig (dumped node') = .ok d →
    ∀ c', edit.target.SameAt d c' → edit.Added c c' → edit.KeptThere entries ∧ edit.Fits entries

/-- The workflows of a configuration, from their list. -/
theorem from_workflows {items : List CfgNode} (h : From .workflows (some (.array items)) c) :
    loadWorkflowLoop items false = .ok c.workflows := by
  obtain ⟨d, hd, hsame⟩ := h
  obtain ⟨ws, hws, rfl⟩ := load_array.mp hd
  have heq : c.workflows = ws := Eq.symm hsame
  rw [heq]
  exact hws

/-- The item of a workflow has a `stdin` key. -/
theorem workflowFrame_hasStdin (concurrency : Int) (idl : String) (port stdin : Int) :
    HasStdin (workflowFrame concurrency idl port stdin) := by
  rw [workflowFrame]
  split
  · simp [HasStdin, createWorkflow, Dict.setEntry]
  · split <;> simp [HasStdin, createWorkflow, Dict.setEntry]

/-- The list to which a workflow is added. -/
theorem processAddWorkflow_cases {frame : List (String × CfgNode)}
    (h : processAddWorkflow frame entries = some entries')
    (hc : From .workflows (Dict.getEntry "workflows" entries) c) :
    ∃ items, loadWorkflowLoop items false = .ok c.workflows ∧
      entries' = Dict.setEntry "workflows" (.array (items ++ [.mapping frame])) entries ∧
      ((∀ node, Dict.getEntry "workflows" entries = some node → DumpsAs .workflows node) ↔
        loadWorkflowLoop (items.map dumped) false = .ok c.workflows) ∧
      ((∀ items', Dict.getEntry "workflows" entries = some (.array items') →
          ∀ f, CfgNode.mapping f ∈ items' → ¬EnablesStdin f) ↔
        ∀ f, CfgNode.mapping f ∈ items → ¬EnablesStdin f) := by
  rw [processAddWorkflow] at h
  split at h
  next v hget =>
    split_ifs at h
    rw [hget] at hc
    obtain ⟨d, hd, hsame⟩ := hc
    obtain rfl := Except.ok.inj hd
    have hnone : c.workflows = [] := Eq.symm hsame
    refine ⟨[], by rw [hnone]; rfl, (Option.some.inj h).symm, ?_, by simp [hget]⟩
    refine iff_of_true (fun node hn => ?_) (by rw [hnone]; rfl)
    rw [← Option.some.inj (hget.symm.trans hn)]
    rfl
  next items hget =>
    rw [hget] at hc
    have hitems := from_workflows hc
    refine ⟨items, hitems, (Option.some.inj h).symm, ?_, by simp [hget]⟩
    rw [← dumpsAs_array hitems, hget]
    simp
  next => exact absurd h (by simp)
  next => exact absurd h (by simp)

/-- One more workflow. -/
theorem addWorkflow_edited {concurrency : Int} {idl : String} {port stdin : Int}
    (h : (Edit.addWorkflow concurrency idl port stdin).apply entries = some entries')
    (hc : From .workflows (Dict.getEntry "workflows" entries) c) :
    ∃ node', Edited (.addWorkflow concurrency idl port stdin) entries entries' c node' := by
  obtain ⟨items, hitems, hset, hkept, hno⟩ := processAddWorkflow_cases h hc
  have hloads (ws' : List WorkflowCfg) :
      loadWorkflowLoop (items.map dumped ++ [.mapping (workflowFrame concurrency idl port stdin)])
        false = .ok ws' ↔ _ :=
    addWorkflow_loads (workflowFrame_hasStdin concurrency idl port stdin) ws'
  have hdump : dumped (.array (items ++ [.mapping (workflowFrame concurrency idl port stdin)])) =
      .array (items.map dumped ++ [.mapping (workflowFrame concurrency idl port stdin)]) := by
    rw [dumped, dumpedItems_eq, List.map_append, List.map_singleton, dumped_workflowFrame]
  -- the items enable stdin as they are or as they are dumped
  have hstdin (hws : loadWorkflowLoop (items.map dumped) false = .ok c.workflows) :
      (∀ f, CfgNode.mapping f ∈ items.map dumped → ¬EnablesStdin f) ↔
        ∀ f, CfgNode.mapping f ∈ items → ¬EnablesStdin f := by
    rw [noStdin_iff hws, noStdin_iff hitems]
  refine ⟨_, hset, by simp [ConfigUtils.truthy], ?loads, ?back⟩
  case loads =>
    rintro hkeep ⟨hacc, hfits⟩
    obtain ⟨w, hw⟩ := acceptable_iff.mp hacc
    have hws := hkept.mp hkeep
    rw [hdump]
    refine ⟨_, load_array.mpr ⟨_, (hloads _).mpr ⟨_, w, hws, hw, rfl, ?_⟩, rfl⟩, ?_⟩
    · exact (hstdin hws).mpr (hno.mp hfits)
    · exact fun c' hsame hother => ⟨Eq.symm hother, w, hw, Eq.symm hsame⟩
  case back =>
    rintro d hd c' hsame ⟨-, w', hw', hadded⟩
    rw [hdump] at hd
    obtain ⟨ws', hws', rfl⟩ := load_array.mp hd
    obtain ⟨ws, w, hws, hw, rfl, hfits⟩ := (hloads ws').mp hws'
    have heq : ws ++ [w] = c.workflows ++ [w'] := Eq.trans hsame hadded
    obtain ⟨rfl, -⟩ := List.append_inj' heq rfl
    exact ⟨hkept.mpr hws, acceptable_iff.mpr ⟨w, hw⟩, hno.mpr ((hstdin hws).mp hfits)⟩

/-- The list and the workflow to which a module is added. -/
theorem processAddModule_cases {idx : Int} {name type : String}
    (h : processAddModule idx name type entries = some entries') :
    ∃ items i frame arr, Dict.getEntry "workflows" entries = some (.array items) ∧
      pyIndex items.length idx = some i ∧ items[i]? = some (.mapping frame) ∧
      Dict.getEntry "modules" frame = some (.array arr) ∧
      entries' = Dict.setEntry "workflows" (.array (items.set i (.mapping (Dict.setEntry "modules"
        (.array (arr ++ [pyNode (.str (moduleText name type))])) frame)))) entries := by
  rw [processAddModule] at h
  split at h
  next items hget =>
    obtain ⟨i, hi, h⟩ := Option.bind_eq_some_iff.mp h
    split at h
    next frame hframe =>
      obtain ⟨frame', hadd, h⟩ := Option.bind_eq_some_iff.mp h
      rw [addModuleTo] at hadd
      split at hadd
      next arr harr =>
        split_ifs at hadd
        obtain rfl := Option.some.inj hadd
        exact ⟨items, i, frame, arr, hget, hi, hframe, harr, (Option.some.inj h).symm⟩
      all_goals exact absurd hadd (by simp)
    all_goals exact absurd h (by simp)
  all_goals exact absurd h (by simp)

/-- Workflows that are the same with one more module in the same place were the same. -/
theorem modify_withModule_inj {ws ws' : List WorkflowCfg} {i : Nat} {m : ModuleCfg}
    (h : ws.modify i (withModule m) = ws'.modify i (withModule m)) : ws = ws' := by
  have hinj : Function.Injective (withModule m) := by
    intro w w' heq
    obtain ⟨⟩ := w
    obtain ⟨⟩ := w'
    simp_all [withModule]
  refine List.ext_getElem? fun j => ?_
  have hj := congrArg (·[j]?) h
  simp only [List.getElem?_modify] at hj
  split at hj
  · exact Option.map_injective hinj hj
  · simpa using hj

/-- One more module. -/
theorem addModule_edited {idx : Int} {name type : String}
    (hunique : (CfgNode.mapping entries).Unique)
    (h : (Edit.addModule idx name type).apply entries = some entries')
    (hc : From .workflows (Dict.getEntry "workflows" entries) c) :
    ∃ node', Edited (.addModule idx name type) entries entries' c node' := by
  obtain ⟨items, i, frame, arr, hget, hi, hframe, harr, hset⟩ := processAddModule_cases h
  rw [hget] at hc
  have hitems := from_workflows hc
  have hnodup : (frame.map Prod.fst).Nodup :=
    ((hunique.get hget).item (List.mem_of_getElem? hframe)).keys
  -- the list, the workflow and its modules, as they are read back
  have hframe' : (items.map dumped)[i]? = some (.mapping (dumpedEntries frame)) := by
    rw [List.getElem?_map, hframe]
    rfl
  have harr' : Dict.getEntry "modules" (dumpedEntries frame) = some (.array (arr.map dumped)) := by
    rw [getEntry_dumped, harr, Option.map_some, dumped, dumpedItems_eq]
  have hloads := fun ws' => addModule_loads hframe' (by rw [dumpedEntries_keys]; exact hnodup)
    harr' (pyNode (.str (moduleText name type))) ws'
  have hdump : dumped (.array (items.set i (.mapping (Dict.setEntry "modules"
      (.array (arr ++ [pyNode (.str (moduleText name type))])) frame)))) =
      .array ((items.map dumped).set i (.mapping (Dict.setEntry "modules"
        (.array (arr.map dumped ++ [pyNode (.str (moduleText name type))]))
          (dumpedEntries frame)))) := by
    rw [dumped, dumpedItems_eq, List.map_set, dumped, dumpedEntries_setEntry, dumped,
      dumpedItems_eq, List.map_append]
    rfl
  have hlength : c.workflows.length = items.length := by
    obtain ⟨frames, rfl⟩ := loadWorkflowLoop_frames hitems
    rw [List.length_map, (loadWorkflowLoop_ok.mp hitems).1.length_eq]
  have hkept : (∀ node, Dict.getEntry "workflows" entries = some node → DumpsAs .workflows node) ↔
      loadWorkflowLoop (items.map dumped) false = .ok c.workflows := by
    rw [← dumpsAs_array hitems, hget]
    simp
  refine ⟨_, hset, ?truthy, ?loads, ?back⟩
  case truthy =>
    have hpos : items.set i (.mapping (Dict.setEntry "modules"
        (.array (arr ++ [pyNode (.str (moduleText name type))])) frame)) ≠ [] := by
      intro hnil
      rw [List.set_eq_nil_iff] at hnil
      rw [hnil] at hframe
      exact absurd hframe (by simp)
    simp [ConfigUtils.truthy, hpos]
  case loads =>
    intro hkeep hfits
    obtain ⟨m, hm⟩ := (loadModule_moduleText name type).mpr hfits
    rw [hdump]
    refine ⟨_, load_array.mpr ⟨_, (hloads _).mpr ⟨_, m, hkept.mp hkeep, hm, rfl⟩, rfl⟩, ?_⟩
    exact fun c' hsame hother =>
      ⟨Eq.symm hother, i, m, by rw [hlength]; exact hi, hm, Eq.symm hsame⟩
  case back =>
    rintro d hd c' hsame ⟨-, i', m', hi', hm', hadded⟩
    rw [hdump] at hd
    obtain ⟨ws', hws', rfl⟩ := load_array.mp hd
    obtain ⟨ws, m, hws, hm, rfl⟩ := (hloads ws').mp hws'
    obtain rfl : i = i' := by
      rw [hlength, hi] at hi'
      exact Option.some.inj hi'
    obtain rfl := Except.ok.inj (hm.symm.trans hm')
    have heq : ws.modify i (withModule m) = c.workflows.modify i (withModule m) :=
      Eq.trans hsame hadded
    obtain rfl := modify_withModule_inj heq
    exact ⟨hkept.mpr hws, (loadModule_moduleText name type).mp ⟨m, hm⟩⟩

/-- The services to which one is added. -/
theorem processAddService_cases {name : String} {obj : List (String × CfgNode)}
    (hunique : (CfgNode.mapping entries).Unique)
    (h : processAddService name obj entries = some entries')
    (hc : From .services (Dict.getEntry "services" entries) c) :
    ∃ services, (services.map Prod.fst).Nodup ∧
      loadServiceLoop services (fun _ => none) = .ok c.services ∧
      entries' = Dict.setEntry "services"
        (.mapping (Dict.setEntry name (.mapping obj) services)) entries ∧
      ((∀ services', Dict.getEntry "services" entries = some (.mapping services') →
          ∀ n node, n ≠ name → Dict.getEntry n services' = some node →
            loadService (dumped node) = loadService node) ↔
        ∀ n node, n ≠ name → Dict.getEntry n services = some node →
          loadService (dumped node) = loadService node) := by
  rw [processAddService] at h
  split at h
  next v hget =>
    split_ifs at h
    rw [hget] at hc
    obtain ⟨d, hd, hsame⟩ := hc
    obtain rfl := Except.ok.inj hd
    have hnone : c.services = fun _ => none := Eq.symm hsame
    refine ⟨[], .nil, by rw [hnone]; rfl, (Option.some.inj h).symm, ?_⟩
    simp [hget, Dict.getEntry]
  next services hget =>
    rw [hget] at hc
    obtain ⟨d, hd, hsame⟩ := hc
    obtain ⟨table, htable, rfl⟩ := load_mapping.mp hd
    have heq : c.services = table := Eq.symm hsame
    refine ⟨services, (hunique.get hget).keys, ?_, (Option.some.inj h).symm, by simp [hget]⟩
    rw [heq]
    exact htable
  all_goals exact absurd h (by simp)

/-- One more service. -/
theorem addService_edited {name : String} {enable : PyValue} {dataMode language : String}
    (hunique : (CfgNode.mapping entries).Unique)
    (h : (Edit.addService name enable dataMode language).apply entries = some entries')
    (hc : From .services (Dict.getEntry "services" entries) c) :
    ∃ node', Edited (.addService name enable dataMode language) entries entries' c node' := by
  obtain ⟨services, hnodup, hservices, hset, hkept⟩ := processAddService_cases hunique h hc
  have hkeys (n : String) : Dict.getEntry n (dumpedEntries services) = none ↔
      Dict.getEntry n services = none := by
    rw [getEntry_dumped, Option.map_eq_none_iff]
  have hloads := fun service => addService_loads hnodup
    (by rw [dumpedEntries_keys]; exact hnodup) hkeys hservices name
    (.mapping (serviceObj enable dataMode language)) service
  have hdump : dumped (.mapping (Dict.setEntry name
      (.mapping (serviceObj enable dataMode language)) services)) =
      .mapping (Dict.setEntry name (.mapping (serviceObj enable dataMode language))
        (dumpedEntries services)) := by
    rw [dumped, dumpedEntries_setEntry]
    rfl
  -- the services at the other names are read back in their places
  have hsame : (∀ n old new, n ≠ name → Dict.getEntry n services = some old →
      Dict.getEntry n (dumpedEntries services) = some new → loadService new = loadService old) ↔
      ∀ n node, n ≠ name → Dict.getEntry n services = some node →
        loadService (dumped node) = loadService node := by
    simp only [getEntry_dumped]
    constructor
    · exact fun hall n node hn hget => hall n node (dumped node) hn hget (by rw [hget]; rfl)
    · intro hall n old new hn hget hget'
      rw [hget] at hget'
      rw [← Option.some.inj hget']
      exact hall n old hn hget
  refine ⟨_, hset, ?truthy, ?loads, ?back⟩
  case truthy =>
    have hpos : Dict.setEntry name (.mapping (serviceObj enable dataMode language)) services ≠
        [] := by
      cases services with
      | nil => simp [Dict.setEntry]
      | cons e es =>
        rw [Dict.setEntry]
        split <;> simp
    simp [ConfigUtils.truthy, hpos]
  case loads =>
    intro hkeep hfits
    obtain ⟨service, hservice⟩ := (loadService_serviceObj enable dataMode language).mpr hfits
    rw [hdump]
    refine ⟨_, load_mapping.mpr ⟨_, (hloads service).mpr
      ⟨hservice, hsame.mpr (hkept.mp hkeep)⟩, rfl⟩, ?_⟩
    exact fun c' htarget hother => ⟨Eq.symm hother, service, hservice, Eq.symm htarget⟩
  case back =>
    rintro d hd c' htarget ⟨-, service, hservice, hadded⟩
    rw [hdump] at hd
    obtain ⟨table', htable', rfl⟩ := load_mapping.mp hd
    have heq : table' = fun n => if n = name then some service else c.services n :=
      Eq.trans htarget hadded
    rw [heq] at htable'
    obtain ⟨-, hrest⟩ := (hloads service).mp htable'
    exact ⟨hkept.mpr (hsame.mp hrest),
      (loadService_serviceObj enable dataMode language).mp ⟨service, hservice⟩⟩

/-- **Every edit.** -/
theorem apply_edited (hunique : (CfgNode.mapping entries).Unique)
    (h : edit.apply entries = some entries')
    (hc : From edit.target (Dict.getEntry edit.target.key entries) c) :
    ∃ node', Edited edit entries entries' c node' := by
  cases edit with
  | addWorkflow => exact addWorkflow_edited h hc
  | addModule => exact addModule_edited hunique h hc
  | addService => exact addService_edited hunique h hc

/-- What an edit adds leaves the other section alone. -/
theorem Added.other (h : edit.Added c c') : edit.other.SameAt c c' := by
  cases edit <;> exact Eq.symm h.1

/-- The two sections. -/
theorem target_cases (edit : Edit) :
    (edit.target = .workflows ∧ edit.other = .services) ∨
      edit.target = .services ∧ edit.other = .workflows := by
  cases edit with
  | addWorkflow | addModule => exact .inl ⟨rfl, rfl⟩
  | addService => exact .inr ⟨rfl, rfl⟩

end Edit

/-! ### What is preserved -/

/-- A file is accepted when it is loaded and the names are valid. -/
theorem skConfigCreate_ok {root : CfgNode} : skConfigCreate root = .ok c ↔
    SkConfig.loadConfig root createConfig = .ok c ∧ c.postLoad = .ok () := by
  rw [skConfigCreate, except_bind_ok]
  constructor
  · rintro ⟨d, hd, hrest⟩
    obtain ⟨u, hu, hend⟩ := except_bind_ok.mp hrest
    obtain rfl := Except.ok.inj hend
    exact ⟨hd, hu⟩
  · rintro ⟨hd, hu⟩
    exact ⟨c, hd, except_bind_ok.mpr ⟨(), hu, rfl⟩⟩

/-- The names are read the same when the settings that make up their bytes are the same. -/
theorem names_congr (h : ∀ s : Setting, s ≠ .workflows → s ≠ .services → s.SameAt c c') :
    c.logNameText = c'.logNameText ∧ c.diagNameText = c'.diagNameText := by
  have hlog : c.logName = c'.logName := h .logName (by decide) (by decide)
  have hdiag : c.diagName = c'.diagName := h .diagName (by decide) (by decide)
  have hthreads : c.threads = c'.threads := h .threads (by decide) (by decide)
  have hlevel : c.logLevel = c'.logLevel := h .logLevel (by decide) (by decide)
  have hbytes : c.diagBytes = c'.diagBytes := by
    rw [SkConfig.diagBytes, SkConfig.diagBytes, hdiag, hthreads, hlevel]
  rw [SkConfig.logNameText, SkConfig.logNameText, SkConfig.diagNameText, SkConfig.diagNameText,
    hlog, hbytes]
  exact ⟨rfl, rfl⟩

/-- Then they are valid, too. -/
theorem postLoad_congr (h : c.logNameText = c'.logNameText ∧ c.diagNameText = c'.diagNameText) :
    c'.postLoad = c.postLoad := by
  rw [SkConfig.postLoad, SkConfig.postLoad, h.1, h.2]

/-- Sections do not matter for the other settings. -/
theorem Writable.congr {yaml : String → Option CfgNode}
    (h : ∀ key, key ≠ "workflows" → key ≠ "services" →
      Dict.getEntry key entries' = Dict.getEntry key entries) :
    Writable yaml entries' ↔ Writable yaml entries := by
  have hkey : ∀ s : Setting, s ≠ .workflows → s ≠ .services →
      Dict.getEntry s.key entries' = Dict.getEntry s.key entries := fun s hw hs =>
    h s.key (fun heq => hw (Setting.key_inj heq)) fun heq => hs (Setting.key_inj heq)
  have hlog := h "diag_log" (by decide) (by decide)
  have hname := h "diag_name" (by decide) (by decide)
  have hlangs := h "languages" (by decide) (by decide)
  constructor
  · rintro ⟨hplain, hd, hn, hl⟩
    rw [hlog] at hd
    rw [hname] at hn
    rw [hlangs] at hl
    exact ⟨fun s hw hs hsd hsl node hget => hplain s hw hs hsd hsl node ((hkey s hw hs).trans hget),
      hd, hn, hl⟩
  · rintro ⟨hplain, hd, hn, hl⟩
    rw [← hlog] at hd
    rw [← hname] at hn
    rw [← hlangs] at hl
    exact ⟨fun s hw hs hsd hsl node hget =>
      hplain s hw hs hsd hsl node ((hkey s hw hs).symm.trans hget), hd, hn, hl⟩

/-- What is written for a setting that is no section is read back, and loaded. -/
theorem Writable.item {yaml : String → Option CfgNode} (h : Writable yaml entries)
    (hw : s ≠ .workflows) (hs : s ≠ .services) (hd : s ≠ .diagName)
    (hc : From s (Dict.getEntry s.key entries) c) :
    ∃ item, dumpItem yaml entries s.key = some item ∧ ∃ d, reads s item = .ok d := by
  obtain ⟨d, hread, -⟩ := hc
  -- a value that is true for Python is written so that it reads the same
  have hwritten {node : CfgNode} (hget : Dict.getEntry s.key entries = some node)
      (ht : truthy node = true) (hf : FormatsAs yaml s node) :
      ∃ item, dumpItem yaml entries s.key = some item ∧ ∃ d, reads s item = .ok d := by
    obtain ⟨node', hnode', hload⟩ := hf
    rw [dumpItem_truthy hw hs hget ht, hnode']
    rw [hget] at hread
    exact ⟨some node', rfl, d, hload.trans hread⟩
  by_cases hl : s = .langs
  · subst hl
    obtain ⟨node, hget, ht, hf⟩ := h.languages
    exact hwritten hget ht hf
  · cases hfilter : (Dict.getEntry s.key entries).filter truthy with
    | none => exact ⟨none, dumpItem_falsy hw hs hl hfilter, createConfig, rfl⟩
    | some node =>
      obtain ⟨hget, ht⟩ := Option.filter_eq_some_iff.mp hfilter
      have hplain := h.plain s hw hs hd hl node hget
      rw [if_pos ht] at hplain
      exact hwritten hget ht hplain

/-- The keys that are written are those of the settings, but for the name of the diagnosis log. -/
theorem dumpKeys_cases (h : key ∈ dumpKeys) :
    key = "diag_name" ∨ ∃ s : Setting, s ≠ .diagName ∧ s.key = key := by
  by_cases hkey : key = "diag_name"
  · exact .inl hkey
  · have hmem : key ∈ dumpKeys.erase "diag_name" :=
      (List.mem_erase_of_ne hkey).mpr h
    have hall : ∀ k ∈ dumpKeys.erase "diag_name", ∃ s ∈ [Setting.threads, .workflows, .logName,
        .logLevel, .services, .bioCnt, .langs, .commandPort, .commandBind, .maxFds, .txnLogging,
        .slowlogMs], s ≠ .diagName ∧ s.key = k := by decide
    obtain ⟨s, -, hs⟩ := hall key hmem
    exact .inr ⟨s, hs⟩

/-- **The file that is written is loaded** when what is written for each setting is. -/
theorem dumpConfig_loads {yaml : String → Option CfgNode}
    (hname : (dumpItem yaml entries "diag_name").isSome)
    (h : ∀ s : Setting, s ≠ .diagName →
      ∃ item, dumpItem yaml entries s.key = some item ∧ ∃ d, reads s item = .ok d) :
    ∃ file c', dumpConfig yaml entries = some file ∧
      SkConfig.loadConfig (.mapping file) createConfig = .ok c' := by
  have hread : ∀ key ∈ dumpKeys, (dumpItem yaml entries key).isSome := by
    intro key hkey
    rcases dumpKeys_cases hkey with rfl | ⟨s, hs, rfl⟩
    · exact hname
    · obtain ⟨item, hitem, -⟩ := h s hs
      rw [hitem]
      rfl
  have heach : ∀ e ∈ dumpKeys.filterMap fun key => (dumpItem yaml entries key).join.map (key, ·),
      ∃ d, createConfig.loadEntry e.1 e.2 = .ok d := by
    intro e he
    obtain ⟨key, hkey, hitem⟩ := List.mem_filterMap.mp he
    obtain ⟨node, hnode, rfl⟩ := Option.map_eq_some_iff.mp hitem
    rcases dumpKeys_cases hkey with rfl | ⟨s, hs, rfl⟩
    · have hunknown : ∀ s : Setting, s.key ≠ "diag_name" := fun s => by cases s <;> decide
      exact ⟨createConfig, Setting.loadEntry_unknown hunknown createConfig node⟩
    · obtain ⟨item, hitem', d, hd⟩ := h s hs
      rw [hitem', Option.join_some] at hnode
      rw [hnode] at hd
      exact ⟨d, by rw [Setting.loadEntry_key]; exact hd⟩
  obtain ⟨c', hc'⟩ := Setting.loadEntries_total heach createConfig
  exact ⟨_, c', dumpConfig_eq_some.mpr ⟨hread, rfl⟩, hc'⟩

/-- A reader of YAML that knows plain scalars and the list of one language. -/
def plainYaml (text : String) : Option CfgNode :=
  if text = pyStr (.array [pyNode (.str "cpp")]) then some (.array [pyNode (.str "cpp")])
  else some (pyNode (.str text))

/-- A configuration with a language, no workflow, and more settings. -/
def configWith (more : List (String × CfgNode)) : List (String × CfgNode) :=
  [("languages", .array [pyNode (.str "cpp")]), ("workflows", nothing)] ++ more

/-- A workflow at a port is added. -/
def addPort : Edit := .addWorkflow 1 "example" 7758 0

/-- The diagnosis log of the configuration has a name. -/
def memLog : List (String × CfgNode) := configWith [("diag_log", pyNode (.str "mem.log"))]

end ConfigUtils

end Skull
