import Skull.Endpoint.Pool

namespace Skull

/-!
# The lists of an endpoint manager

* `EpMgr.total` — the number of endpoints in all lists;
* `EpMgr.setList_epList`, `EpMgr.setList_total` — what another list at one key changes;
* `EpMgr.removeEp_eq` — `_remove_ep` takes one endpoint out of its list and keeps the order of the
  others;
* `EpMgr.add_del` — an endpoint that is added and removed again leaves its list as it was;
* `EpMgr.all_nodup` — the endpoints of all lists are different.
-/

namespace EpMgr

variable {m : EpMgr} {key key' : EpKey} {x y : EpId} {eps : List EpId}

/-- The number of endpoints in all lists. -/
def total (m : EpMgr) : Int := m.ee.sum fun _ ipm => ipm.sum fun _ eps => (eps.length : Int)

/-- A manager without lists. -/
theorem epList_empty (h : m.ee = .empty) (key : EpKey) : m.epList key = [] := by
  rw [epList, h, Dict.get?_empty]
  rfl

/-- Without lists there are no endpoints. -/
theorem total_empty (h : m.ee = .empty) : m.total = 0 := by rw [total, h, Dict.sum_empty]

/-! ### One list changes -/

/-- One list is set. -/
theorem setList_epList (m : EpMgr) (key : EpKey) (eps : List EpId) (key' : EpKey) :
    (m.setList key eps).epList key' = if key' = key then eps else m.epList key' := by
  obtain ⟨ekey, ipkey⟩ := key
  obtain ⟨ekey', ipkey'⟩ := key'
  simp only [epList, setList, Dict.get?_set, EpKey.mk.injEq]
  by_cases hekey : ekey' = ekey
  · subst hekey
    rw [if_pos rfl, Option.bind_some, Dict.get?_set]
    by_cases hipkey : ipkey' = ipkey
    · rw [if_pos hipkey, if_pos ⟨rfl, hipkey⟩, Option.getD_some]
    · rw [if_neg hipkey, if_neg fun h => hipkey h.2]
      -- another list of the same map
      cases m.ee.get? ekey' <;> rfl
  · rw [if_neg hekey, if_neg fun h => hekey h.1]

@[simp] theorem setList_epList_self (m : EpMgr) (key : EpKey) (eps : List EpId) :
    (m.setList key eps).epList key = eps := by rw [setList_epList, if_pos rfl]

/-- The list that was set last stays. -/
@[simp] theorem setList_setList (m : EpMgr) (key : EpKey) (eps eps' : List EpId) :
    (m.setList key eps).setList key eps' = m.setList key eps' := by
  simp only [setList, Dict.get?_set_self, Option.getD_some, Dict.set_set]

/-- The length of one list, in the number of all endpoints. -/
theorem setList_total (m : EpMgr) (key : EpKey) (eps : List EpId) :
    (m.setList key eps).total + (m.epList key).length = m.total + eps.length := by
  have houter := Dict.sum_set (fun _ ipm => Dict.sum (fun _ eps => (List.length eps : Int)) ipm)
    m.ee key.ekey (((m.ee.get? key.ekey).getD .empty).set key.ipkey eps)
  have hinner := Dict.sum_set (fun _ eps => (List.length eps : Int))
    ((m.ee.get? key.ekey).getD .empty) key.ipkey eps
  simp only [total, setList, epList]
  rw [Dict.part] at houter hinner
  cases hipm : m.ee.get? key.ekey with
  | none =>
    simp only [hipm, Option.elim_none, Option.getD_none, Dict.get?_empty, Dict.sum_empty,
      Option.bind_none, List.length_nil] at houter hinner ⊢
    omega
  | some ipm =>
    simp only [hipm, Option.elim_some, Option.getD_some, Option.bind_some] at houter hinner ⊢
    cases heps : ipm.get? key.ipkey with
    | none =>
      simp only [heps, Option.elim_none, Option.getD_none, List.length_nil] at hinner ⊢
      omega
    | some old =>
      simp only [heps, Option.elim_some, Option.getD_some] at hinner ⊢
      omega

/-- A list that is not empty is there. -/
theorem setList_self (h : m.epList key ≠ []) : m.setList key (m.epList key) = m := by
  cases hipm : m.ee.get? key.ekey with
  | none => exact absurd (by rw [epList, hipm]; rfl) h
  | some ipm =>
    cases heps : ipm.get? key.ipkey with
    | none => exact absurd (by rw [epList, hipm, Option.bind_some, heps]; rfl) h
    | some eps =>
      simp only [setList, epList, hipm, Option.getD_some, Option.bind_some, heps, Dict.set_same heps,
        Dict.set_same hipm]

/-! ### Opening, adding and removing -/

@[simp] theorem openList_epList (m : EpMgr) (key key' : EpKey) :
    (m.openList key).epList key' = m.epList key' := by
  rw [openList, setList_epList]
  split
  · next h => rw [h]
  · rfl

@[simp] theorem openList_nep (m : EpMgr) (key : EpKey) : (m.openList key).nep = m.nep := rfl

@[simp] theorem openList_max (m : EpMgr) (key : EpKey) : (m.openList key).max = m.max := rfl

@[simp] theorem openList_tmp (m : EpMgr) (key : EpKey) : (m.openList key).tmp = m.tmp := rfl

@[simp] theorem openList_total (m : EpMgr) (key : EpKey) : (m.openList key).total = m.total := by
  have htotal := setList_total m key (m.epList key)
  rw [← openList] at htotal
  omega

/-- A list in which something was found is there already. -/
theorem openList_of_mem (h : x ∈ m.epList key) : m.openList key = m :=
  setList_self (List.ne_nil_of_mem h)

/-- Adding opens the list. -/
theorem openList_add (m : EpMgr) (key : EpKey) (x : EpId) :
    (m.openList key).add key x = m.add key x := by
  rw [add, openList_epList, openList, setList_setList]
  rfl

/-- An endpoint comes last in its list. -/
@[simp] theorem add_epList (m : EpMgr) (key : EpKey) (x : EpId) (key' : EpKey) :
    (m.add key x).epList key' = if key' = key then m.epList key ++ [x] else m.epList key' :=
  setList_epList m key _ key'

@[simp] theorem add_nep (m : EpMgr) (key : EpKey) (x : EpId) : (m.add key x).nep = m.nep + 1 := rfl

@[simp] theorem add_tmp (m : EpMgr) (key : EpKey) (x : EpId) : (m.add key x).tmp = m.tmp := rfl

@[simp] theorem add_max (m : EpMgr) (key : EpKey) (x : EpId) : (m.add key x).max = m.max := rfl

@[simp] theorem add_total (m : EpMgr) (key : EpKey) (x : EpId) :
    (m.add key x).total = m.total + 1 := by
  have htotal := setList_total m key (m.epList key ++ [x])
  rw [List.length_append, List.length_singleton] at htotal
  show (m.setList key (m.epList key ++ [x])).total = _
  omega

/-- The first loop leaves all but `x`, in their order, behind what `tmp` held. -/
theorem popOthers_eq (x : EpId) (eps : List EpId) : ∀ tmp, popOthers x eps tmp =
    tmp ++ eps.filter fun t => t ≠ x := by
  induction eps with
  | nil => exact fun tmp => (List.append_nil tmp).symm
  | cons t eps ih =>
    intro tmp
    rw [popOthers]
    by_cases ht : t = x
    · rw [if_neg (not_not.mpr ht), ih, List.filter_cons_of_neg (by simp [ht])]
    · rw [if_pos ht, ih, List.filter_cons_of_pos (by simp [ht]), List.append_assoc]
      rfl

/-- The second loop moves all of `tmp`. -/
theorem pushBack_eq (tmp : List EpId) : ∀ eps, pushBack tmp eps = eps ++ tmp := by
  induction tmp with
  | nil => exact fun eps => (List.append_nil eps).symm
  | cons t tmp ih =>
    intro eps
    rw [pushBack, ih, List.append_assoc]
    rfl

/-- **`_remove_ep`** takes `x` out of its list, keeps the order of the others, and leaves the other
    lists alone. -/
theorem removeEp_epList (htmp : m.tmp = []) (key : EpKey) (x : EpId) (key' : EpKey) :
    (m.removeEp key x).epList key' =
      if key' = key then (m.epList key).filter fun t => t ≠ x else m.epList key' := by
  rw [removeEp]
  split
  · next hnil =>
    split
    · next hkey => rw [hkey, hnil]; rfl
    · rfl
  · rw [popOthers_eq, pushBack_eq, htmp]
    exact setList_epList m key _ key'

/-- `_remove_ep` leaves its temporary list empty. -/
theorem removeEp_tmp (htmp : m.tmp = []) (key : EpKey) (x : EpId) :
    (m.removeEp key x).tmp = [] := by
  rw [removeEp]
  split
  · exact htmp
  · rfl

@[simp] theorem removeEp_max (m : EpMgr) (key : EpKey) (x : EpId) :
    (m.removeEp key x).max = m.max := by
  rw [removeEp]
  split <;> rfl

/-- Removing an endpoint that is in its list once. -/
theorem removeEp_total (htmp : m.tmp = []) (hmem : x ∈ m.epList key)
    (hnodup : (m.epList key).Nodup) : (m.removeEp key x).total = m.total - 1 := by
  have hne := List.ne_nil_of_mem hmem
  have hlen := List.length_erase_of_mem hmem
  have hpos := List.length_pos_of_mem hmem
  rw [hnodup.erase_eq_filter] at hlen
  have htotal := setList_total m key ((m.epList key).filter fun t => t ≠ x)
  rw [removeEp, if_neg hne, popOthers_eq, pushBack_eq, htmp]
  show (m.setList key ((m.epList key).filter fun t => t ≠ x)).total = _
  have hfilter : (m.epList key).filter (fun t => t ≠ x) = (m.epList key).filter (· != x) := by
    congr 1
    funext t
    by_cases ht : t = x <;> simp [ht]
  rw [hfilter] at htotal ⊢
  omega

/-- An endpoint is taken out, and the others keep their order. -/
@[simp] theorem del_epList (htmp : m.tmp = []) (key : EpKey) (x : EpId) (key' : EpKey) :
    (m.del key x).epList key' =
      if key' = key then (m.epList key).filter fun t => t ≠ x else m.epList key' :=
  removeEp_epList htmp key x key'

/-- **An endpoint that is added and removed again** leaves its list as it was. -/
theorem add_del (htmp : m.tmp = []) (hfresh : x ∉ m.epList key) :
    (m.add key x).del key x = m.openList key := by
  have hsame : (m.epList key).filter (fun t => t ≠ x) = m.epList key := by
    rw [List.filter_eq_self]
    intro t ht
    exact decide_eq_true fun heq => hfresh (heq ▸ ht)
  have hnil : ¬ (m.add key x).epList key = [] := by simp
  rw [del, removeEp, if_neg hnil, popOthers_eq, pushBack_eq, add_tmp, htmp, add_epList, if_pos rfl,
    List.filter_append, hsame, List.filter_cons_of_neg (by simp), List.filter_nil, List.append_nil]
  show ({ (m.setList key (m.epList key ++ [x])).setList key (m.epList key) with
    tmp := [], nep := m.nep + 1 - 1 } : EpMgr) = _
  rw [setList_setList, openList, ← htmp, Int.add_sub_cancel]
  rfl

/-! ### All lists -/

/-- The endpoints of a manager are those of its lists. -/
theorem mem_all : x ∈ m.all ↔ ∃ key, x ∈ m.epList key := by
  simp only [all, List.mem_flatMap, epList]
  constructor
  · rintro ⟨⟨ekey, ipm⟩, hipm, ⟨ipkey, eps⟩, heps, hx⟩
    refine ⟨⟨ekey, ipkey⟩, ?_⟩
    rw [Dict.mem_entries_iff.mp hipm, Option.bind_some, Dict.mem_entries_iff.mp heps]
    exact hx
  · rintro ⟨key, hx⟩
    cases hipm : m.ee.get? key.ekey with
    | none => rw [hipm] at hx; exact absurd hx List.not_mem_nil
    | some ipm =>
      rw [hipm, Option.bind_some] at hx
      cases heps : ipm.get? key.ipkey with
      | none => rw [heps] at hx; exact absurd hx List.not_mem_nil
      | some eps =>
        rw [heps] at hx
        exact ⟨(key.ekey, ipm), Dict.mem_entries_iff.mpr hipm, (key.ipkey, eps),
          Dict.mem_entries_iff.mpr heps, hx⟩

/-- The values of a dictionary that hold different things, in one list. -/
theorem nodup_flatMap {α β γ : Type} [DecidableEq α] (d : Dict α β) (f : β → List γ)
    (hnodup : ∀ a b, d.get? a = some b → (f b).Nodup)
    (happart : ∀ a b a' b' c, d.get? a = some b → d.get? a' = some b' → c ∈ f b → c ∈ f b' → a = a') :
    (d.entries.flatMap fun entry => f entry.2).Nodup := by
  refine List.nodup_flatMap.mpr ⟨fun entry hentry => ?_, ?_⟩
  · exact hnodup entry.1 entry.2 (Dict.mem_entries_iff.mp hentry)
  · have hkeys : d.entries.Pairwise fun a b => a.1 ≠ b.1 := List.pairwise_map.mp d.nodup
    refine (List.Pairwise.and_mem.mp hkeys).imp ?_
    rintro a b ⟨ha, hb, hne⟩ c hca hcb
    exact hne (happart a.1 a.2 b.1 b.2 c (Dict.mem_entries_iff.mp ha) (Dict.mem_entries_iff.mp hb)
      hca hcb)

/-- **The endpoints of all lists** are different, when those of each list are and no two lists
    share one. -/
theorem all_nodup (hnodup : ∀ key, (m.epList key).Nodup)
    (happart : ∀ key key' x, x ∈ m.epList key → x ∈ m.epList key' → key = key') : m.all.Nodup := by
  have hlist : ∀ ekey ipm ipkey eps, m.ee.get? ekey = some ipm → ipm.get? ipkey = some eps →
      m.epList ⟨ekey, ipkey⟩ = eps := fun ekey ipm ipkey eps hipm heps => by
    rw [epList, hipm, Option.bind_some, heps, Option.getD_some]
  refine nodup_flatMap m.ee (fun ipm => ipm.entries.flatMap Prod.snd) (fun ekey ipm hipm => ?_) ?_
  · refine nodup_flatMap ipm id (fun ipkey eps heps => ?_) ?_
    · rw [id, ← hlist ekey ipm ipkey eps hipm heps]
      exact hnodup _
    · intro ipkey eps ipkey' eps' x heps heps' hx hx'
      have hkey := happart ⟨ekey, ipkey⟩ ⟨ekey, ipkey'⟩ x
        (by rw [hlist ekey ipm ipkey eps hipm heps]; exact hx)
        (by rw [hlist ekey ipm ipkey' eps' hipm heps']; exact hx')
      exact congrArg EpKey.ipkey hkey
  · intro ekey ipm ekey' ipm' x hipm hipm' hx hx'
    obtain ⟨⟨ipkey, eps⟩, heps, hxeps⟩ := List.mem_flatMap.mp hx
    obtain ⟨⟨ipkey', eps'⟩, heps', hxeps'⟩ := List.mem_flatMap.mp hx'
    have hkey := happart ⟨ekey, ipkey⟩ ⟨ekey', ipkey'⟩ x
      (by rw [hlist ekey ipm ipkey eps hipm (Dict.mem_entries_iff.mp heps)]; exact hxeps)
      (by rw [hlist ekey' ipm' ipkey' eps' hipm' (Dict.mem_entries_iff.mp heps')]; exact hxeps')
    exact congrArg EpKey.ekey hkey

end EpMgr

end Skull
