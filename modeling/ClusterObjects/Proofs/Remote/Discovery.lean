import ClusterObjects.Proofs.Exchange
import ClusterObjects.Proofs.Remote.Mapping
import ClusterObjects.Remote.Store

/-! # What discovery finds

A client remembers resources only as versions of API groups list them, and a listed resource has
the group and the version of its kind. Everything else that an operation does leaves the mapping
alone.
-/

namespace ClusterObjects

/-- A resource and its kind as a version of an API group lists them. -/
structure Listed (pair : Gvr × Gvk) : Prop where
  group_eq : pair.1.group = pair.2.group
  version_eq : pair.1.version = pair.2.version
  whole : '/' ∉ pair.1.resource.toList

namespace Remote

theorem listed_of_mem {list : Json} {pair : Gvr × Gvk} (h : pair ∈ listedResources list) :
    Listed pair := by
  obtain ⟨hmem, hwhole⟩ := List.mem_filter.mp h
  obtain ⟨entry, _, rfl⟩ := List.mem_map.mp hmem
  exact ⟨rfl, rfl, by simpa using hwhole⟩

variable {ε α β : Type}

/-- What an exchange remembers has been listed, and its results have a property. -/
def Explores (exchange : ExceptT ε (StateM Remote) α) (P : α → Prop) : Prop :=
  ∀ remote, ∃ found, (∀ pair ∈ found, Listed pair) ∧
    (exchange remote).2.mapping = remote.mapping.after found ∧
    ∀ result, (exchange remote).1 = .ok result → P result

namespace Explores

variable {P : α → Prop} {Q : β → Prop}

theorem of_mapping_eq {exchange : ExceptT ε (StateM Remote) α}
    (h : ∀ remote, (exchange remote).2.mapping = remote.mapping) :
    Explores exchange fun _ => True :=
  fun remote => ⟨[], nofun, h remote, fun _ _ => trivial⟩

theorem pure {result : α} (h : P result) :
    Explores (Pure.pure result : ExceptT ε (StateM Remote) α) P :=
  fun _ => ⟨[], nofun, rfl, fun _ hresult => Except.ok.inj hresult ▸ h⟩

theorem throw (e : ε) : Explores (MonadExcept.throw e : ExceptT ε (StateM Remote) α) P :=
  fun _ => ⟨[], nofun, rfl, nofun⟩

theorem bind {exchange : ExceptT ε (StateM Remote) α} {next : α → ExceptT ε (StateM Remote) β}
    (h : Explores exchange P) (hnext : ∀ result, P result → Explores (next result) Q) :
    Explores (exchange >>= next) Q := by
  intro remote
  obtain ⟨found, hfound, hmapping, hresult⟩ := h remote
  rw [bind_apply]
  rcases hrun : exchange remote with ⟨e | result, middle⟩
  · rw [hrun] at hmapping
    exact ⟨found, hfound, hmapping, nofun⟩
  · rw [hrun] at hmapping hresult
    obtain ⟨more, hmore, hlater, hlast⟩ := hnext result (hresult result rfl) middle
    refine ⟨found ++ more, List.forall_mem_append.mpr ⟨hfound, hmore⟩, ?_, hlast⟩
    rw [Mapping.after_append, ← hmapping]
    exact hlater

theorem mapM {γ : Type} {items : List γ} {exchange : γ → ExceptT ε (StateM Remote) α}
    (h : ∀ item ∈ items, Explores (exchange item) P) :
    Explores (items.mapM exchange) fun results => ∀ result ∈ results, P result := by
  induction items with
  | nil => exact .pure nofun
  | cons item rest ih =>
    obtain ⟨hitem, hrest⟩ := List.forall_mem_cons.mp h
    rw [List.mapM_cons]
    exact hitem.bind fun first hfirst => (ih hrest).bind fun others hothers =>
      .pure (List.forall_mem_cons.mpr ⟨hfirst, hothers⟩)

end Explores

/-! ## Exchanges -/

theorem explores_call (request : HttpRequest) (decode : Json → Except DecodeError α) :
    Explores (call request decode) fun _ => True := by
  refine Explores.bind (.of_mapping_eq fun _ => rfl) fun response _ => ?_
  exact Explores.bind (.of_mapping_eq fun _ => rfl) fun value _ => .of_mapping_eq fun _ => rfl

/-! ## Discovery -/

/-- The listed resources of some versions. -/
def AllListed (found : List (String × List (Gvr × Gvk))) : Prop :=
  ∀ entry ∈ found, ∀ pair ∈ entry.2, Listed pair

theorem explores_listVersions (group : String) (versions : List ListedVersion) :
    Explores (listVersions group versions) AllListed := by
  unfold listVersions
  split
  · exact .throw _
  · exact .mapM fun listed _ => (explores_call _ _).bind fun list _ =>
      .pure fun pair hpair => listed_of_mem hpair

theorem explores_learn {found : List (Gvr × Gvk)} (h : ∀ pair ∈ found, Listed pair) :
    Explores (learn found) fun _ => True :=
  fun _ => ⟨found, h, rfl, fun _ _ => trivial⟩

/-- Of what several groups with one name list, the last counts. -/
theorem explores_learn_last {groups : List (List (String × List (Gvr × Gvk)))}
    (h : ∀ found ∈ groups, AllListed found) (version : String) :
    Explores (match groups.getLast? with
      | some found => learn ((found.lookup version).getD [])
      | none => pure ()) fun _ => True := by
  split
  next found hlast =>
    refine explores_learn fun pair hpair => ?_
    cases hversion : found.lookup version with
    | none =>
      rw [hversion] at hpair
      exact absurd hpair List.not_mem_nil
    | some pairs =>
      rw [hversion] at hpair
      obtain ⟨before, rest, rfl, _⟩ := List.lookup_eq_some_iff.mp hversion
      exact h _ (List.mem_of_getLast? hlast) (version, pairs) (by simp) pair hpair
  next => exact .pure trivial

theorem explores_discover (group version : String) :
    Explores (discover group version) fun _ => True := by
  unfold discover
  refine Explores.bind (explores_call _ _) fun groups _ => ?_
  refine Explores.bind (.mapM fun listed _ => explores_listVersions _ _) fun listed hlisted => ?_
  have hlast (core) (hcore : ∀ found ∈ core, AllListed found) :=
    explores_learn_last (List.forall_mem_append.mpr ⟨hlisted, hcore⟩) version
  dsimp only
  split
  · refine (explores_call _ _).bind fun versions _ => ?_
    refine (explores_listVersions _ _).bind fun found hfound => ?_
    exact Explores.bind (.pure (List.forall_mem_singleton.mpr hfound)) hlast
  · exact Explores.bind (.pure nofun) hlast

theorem explores_discovery (group version : String) :
    Explores (discovery group version) fun _ => True := by
  intro remote
  obtain ⟨found, hfound, hmapping, _⟩ := explores_discover group version remote
  refine ⟨found, hfound, ?_, fun _ _ => trivial⟩
  rw [← hmapping]
  unfold discovery
  rcases discover group version remote with ⟨_ | _, _⟩ <;> rfl

theorem explores_get : Explores (get : ExceptT ε (StateM Remote) Remote) fun _ => True :=
  .of_mapping_eq fun _ => rfl

theorem explores_resolve (group version text : String) (find : Mapping → Option α) :
    Explores (resolve group version text find) fun _ => True := by
  unfold resolve
  refine explores_get.bind fun remote _ => ?_
  split
  · exact .pure trivial
  · refine (explores_discovery group version).bind fun _ _ => explores_get.bind fun remote _ => ?_
    split
    · exact .pure trivial
    · exact .throw _

theorem get_apply (remote : Remote) :
    (get : StoreM Remote Remote) remote = (.ok remote, remote) := rfl

/-- Nothing is asked for what is known. -/
theorem resolve_of_find {group version text : String} {find : Mapping → Option α} {found : α}
    {remote : Remote} (h : find remote.mapping = some found) :
    resolve group version text find remote = (.ok found, remote) := by
  unfold resolve
  rw [bind_apply, get_apply]
  dsimp only
  rw [h]
  rfl

theorem explores_pathOf (gvk : Gvk) (namespaceName : String) :
    Explores (pathOf gvk namespaceName) fun _ => True :=
  (explores_resolve _ _ _ _).bind fun _ _ => .pure trivial

end Remote

end ClusterObjects
