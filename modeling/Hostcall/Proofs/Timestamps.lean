import Hostcall.Proofs.Slashes

/-!
# Timestamps of a node

A guest asks for each of the two times of a node that it is set, that it becomes the host's own, or
that it stays.  The host sets both at once, and no lookup depends on them.

* `TimeRequest.updates_eq_ok` reads the flags of a request, `TimeRequest.told` is what can be told
  of a time afterwards, and `Filestat.ofAttributes_setTimes` puts both times together;
* `Volume.setLinkTimes_node` and `Resolved.setTimes_node` say which node of a place gets other
  times; `Volume.PartWays` are the cases in which it is not the one that is told of.
-/

namespace Hostcall

/-! ## Requests -/

namespace TimeRequest

/-- The update of one time. -/
def choice (set : Bool) (t : UInt64) (now : Bool) : TimeUpdate :=
  if set then .absolute t.toNat else if now then .now else .unchanged

/-- One time after an update. -/
def chosen (set : Bool) (t : UInt64) (now : Bool) (clock old : HostTime) : HostTime :=
  if set then t.toNat else if now then clock else old

/-- What is told of one time after an update.  What was set is told as it was set. -/
def told (set : Bool) (t : UInt64) (now : Bool) (clock old : HostTime) : Outcome UInt64 :=
  if set then .ok t else timestamp (some (if now then clock else old))

theorem apply_choice (set : Bool) (t : UInt64) (now : Bool) (clock old : HostTime) :
    (choice set t now).apply clock old = chosen set t now clock old := by
  cases set <;> cases now <;> rfl

theorem timestamp_chosen (set : Bool) (t : UInt64) (now : Bool) (clock old : HostTime) :
    timestamp (some (chosen set t now clock old)) = told set t now clock old := by
  cases set with
  | false => rfl
  | true =>
    have hfits : (t.toNat : Int) < UInt64.size := by
      exact_mod_cast t.toNat_lt
    simp only [chosen, told, if_true, timestamp_some, if_pos hfits]
    simp

/-- One of the times is to be set and to become the host's own at once. -/
def Contradicts (r : TimeRequest) : Prop :=
  (r.flags.contains TimeFlags.accessed = true ∧ r.flags.contains TimeFlags.accessedNow = true) ∨
    (r.flags.contains TimeFlags.modified = true ∧ r.flags.contains TimeFlags.modifiedNow = true)

/-- The access time after a request. -/
def accessedAfter (r : TimeRequest) : HostTime → HostTime → HostTime :=
  chosen (r.flags.contains TimeFlags.accessed) r.accessed (r.flags.contains TimeFlags.accessedNow)

/-- The modification time after a request. -/
def modifiedAfter (r : TimeRequest) : HostTime → HostTime → HostTime :=
  chosen (r.flags.contains TimeFlags.modified) r.modified (r.flags.contains TimeFlags.modifiedNow)

/-- What is told of the access time after a request. -/
def accessedTold (r : TimeRequest) : HostTime → HostTime → Outcome UInt64 :=
  told (r.flags.contains TimeFlags.accessed) r.accessed (r.flags.contains TimeFlags.accessedNow)

/-- What is told of the modification time after a request. -/
def modifiedTold (r : TimeRequest) : HostTime → HostTime → Outcome UInt64 :=
  told (r.flags.contains TimeFlags.modified) r.modified (r.flags.contains TimeFlags.modifiedNow)

theorem update_eq (set : Bool) (t : UInt64) (now : Bool) :
    update set t now =
      if set && now then .error (.because .invalidArgument "timestamp is both absolute and now")
      else .ok (choice set t now) := by
  cases set <;> cases now <;> rfl

theorem updates_of_contradicts {r : TimeRequest} (h : r.Contradicts) :
    r.updates = .error (.because .invalidArgument "timestamp is both absolute and now") := by
  simp only [updates, update_eq]
  rcases h with ⟨hset, hnow⟩ | ⟨hset, hnow⟩
  · simp only [hset, hnow, Bool.and_self, if_true]
  · -- the fault is the same if the other time contradicts itself as well
    by_cases hother : (r.flags.contains TimeFlags.accessed &&
      r.flags.contains TimeFlags.accessedNow) = true
    · simp only [hother, if_true]
    · simp only [hother, hset, hnow, Bool.and_self, if_true]
      rfl

theorem updates_eq_ok {r : TimeRequest} {u : TimeUpdates} (h : r.updates = .ok u) :
    u = ⟨choice (r.flags.contains TimeFlags.accessed) r.accessed
        (r.flags.contains TimeFlags.accessedNow),
      choice (r.flags.contains TimeFlags.modified) r.modified
        (r.flags.contains TimeFlags.modifiedNow)⟩ := by
  simp only [updates, update_eq] at h
  split at h
  case h_1 => cases h
  case h_2 => cases h
  case h_3 haccessed hmodified =>
    cases h
    split at haccessed <;> cases haccessed
    split at hmodified <;> cases hmodified
    rfl

end TimeRequest

/-! ## Nodes with other times -/

namespace Volume

variable {v v' : Volume} {i j : Ino}

theorem node_setTimes (hi : i < v.nodes.size) (u : TimeUpdates) :
    (v.setTimes i u).node i =
      { v.node i with
        accessed := u.accessed.apply v.clock (v.node i).accessed
        modified := u.modified.apply v.clock (v.node i).modified } := by
  rw [setTimes, node_modify, if_pos ⟨rfl, hi⟩]

theorem node_setTimes_of_ne (hj : j ≠ i) (u : TimeUpdates) :
    (v.setTimes i u).node j = v.node j :=
  node_modify_of_ne hj _

theorem attributes_setTimes_of_ne (hj : j ≠ i) (u : TimeUpdates) :
    (v.setTimes i u).attributes j = v.attributes j := by
  rw [attributes, attributes, node_setTimes_of_ne hj]

theorem setTimes_unchanged (v : Volume) (i : Ino) :
    v.setTimes i ⟨.unchanged, .unchanged⟩ = v := by
  have hnodes : v.nodes.modify i id = v.nodes := by
    apply Array.ext
    · exact Array.size_modify
    · intro j hj hj'
      rw [Array.getElem_modify]
      split <;> rfl
  exact congrArg (Volume.mk · v.clock) hnodes

theorem resembles_setTimes (v : Volume) (i : Ino) (u : TimeUpdates) :
    v.Resembles (fun _ => False) (v.setTimes i u) := by
  intro j
  rw [body_setTimes]
  exact .same _

end Volume

namespace Filestat

/-- What a guest is told of a node, given what it is told of the two times. -/
def told (a : Attributes) (accessed modified : Outcome UInt64) : Outcome Filestat := do
  let accessed ← accessed
  let modified ← modified
  return ⟨a.device, a.inode, a.fileType, a.links, a.size, accessed, modified, 0⟩

theorem ofAttributes_eq_told {a : Attributes} (h : a.created = none) :
    ofAttributes a = told a (timestamp a.accessed) (timestamp a.modified) := by
  rw [ofAttributes, h, told]
  cases timestamp a.accessed with
  | error => rfl
  | ok =>
    cases timestamp a.modified with
    | error => rfl
    | ok => rfl

/-- What is told of a node after its times were set. -/
theorem ofAttributes_setTimes {v : Volume} {i : Ino} (hi : i < v.nodes.size) {r : TimeRequest}
    {u : TimeUpdates} (hu : r.updates = .ok u) :
    ofAttributes ((v.setTimes i u).attributes i) =
      told (v.attributes i) (r.accessedTold v.clock (v.node i).accessed)
        (r.modifiedTold v.clock (v.node i).modified) := by
  rw [ofAttributes_eq_told rfl, Volume.attributes, Volume.node_setTimes hi,
    TimeRequest.updates_eq_ok hu]
  simp only [TimeRequest.apply_choice, TimeRequest.timestamp_chosen]
  rfl

end Filestat

/-! ## Where times are set -/

namespace Volume

variable {v v' : Volume} {start dir i : Ino} {front : List Name} {last : Name} {l : Locator}
  {u : TimeUpdates}

theorem entry_lt_size (hv : v.Grounded) (h : v.entry dir last = .ok i) : i < v.nodes.size :=
  hv.lt_size dir i ⟨last, mem_entries_of_child? (entry_iff.mp h).2⟩

/-- A single name leads to what is found under it, if that is a directory. -/
theorem exists_entry_of_openDirectory
    (h : v.openDirectory start true ⟨[last], false⟩ = .ok i) : ∃ j, v.entry start last = .ok j := by
  obtain ⟨-, -, trail, hleads⟩ := openDirectory_follow_iff.mp h
  cases hleads with
  | down hname hchild => exact ⟨_, entry_iff.mpr ⟨hname, hchild⟩⟩
  | through hname hchild => exact ⟨_, entry_iff.mpr ⟨hname, hchild⟩⟩

theorem setLinkTimes_last (h : v.setLinkTimes start ⟨front ++ [last], false⟩ u = .ok v') :
    ∃ dir, v.walkTo start front = .ok dir ∧
      ((∃ i, v.entry dir last = .ok i ∧ v' = v.setTimes i u) ∨
        (u = ⟨.unchanged, .unchanged⟩ ∧ v' = v ∧ ∀ i, v.entry dir last ≠ .ok i)) := by
  simp only [setLinkTimes, List.getLast?_concat, Bool.false_eq_true, if_false] at h
  obtain ⟨dir, hdir, h⟩ := parentOf_bind_iff.mp h
  refine ⟨dir, hdir, ?_⟩
  dsimp only at h
  split at h
  case isTrue hu =>
    cases h
    by_cases hentry : ∃ i, v.entry dir last = .ok i
    · obtain ⟨i, hi⟩ := hentry
      exact .inl ⟨i, hi, by rw [hu, setTimes_unchanged]⟩
    · exact .inr ⟨hu, rfl, fun i hi => hentry ⟨i, hi⟩⟩
  case isFalse =>
    obtain ⟨i, hi, h⟩ := bind_eq_ok.mp h
    cases h
    exact .inl ⟨i, hi, rfl⟩

theorem findLink_last_iff (hstart : v.isDirectory start = true)
    (hdir : v.walkTo start front = .ok dir) :
    v.findLink start ⟨front ++ [last], false⟩ = .ok i ↔
      (front = [] ∨ (Locator.mk (front ++ [last]) false).textLength ≤ Lookup.pathLimit) ∧
        v.entry dir last = .ok i := by
  cases front with
  | nil =>
    cases hdir
    exact ⟨fun h => ⟨.inl rfl, h⟩, fun h => h.2⟩
  | cons name rest =>
    have hne : ∀ n, (name :: rest) ++ [last] ≠ [n] := by simp
    rw [findLink_of_ne hne, find_last_iff hstart]
    simp only [hdir, Except.ok.injEq, reduceCtorEq, false_or]
    exact and_congr_right fun _ => ⟨fun ⟨d, hd, hi⟩ => hd ▸ hi, fun hi => ⟨dir, rfl, hi⟩⟩

/-- Where links are not followed, other times may go to another node than the one that is told of:
a dot behind a single name is ignored when it is told of; where nothing is to be set the name need
not be there; and what is told of must not have too long a path. -/
inductive PartWays (v : Volume) (start : Ino) (l : Locator) (u : TimeUpdates) : Prop where
  | dot {name : Name} {j : Ino} (hl : l = ⟨[name], true⟩) (hchild : v.child? start name = some j)
      (hj : v.isDirectory j = false)
  | missing {dir : Ino} {name : Name} (hdot : l.dot = false) (hu : u = ⟨.unchanged, .unchanged⟩)
      (hname : v.NamesIn start l.names dir name) (hmissing : ∀ i, v.entry dir name ≠ .ok i)
  | long (hdot : l.dot = false) (hnames : 2 ≤ l.names.length)
      (hlong : Lookup.pathLimit < l.textLength)

/-- With a dot behind a path it is a directory that gets other times. -/
theorem setLinkTimes_node_dotted (hv : v.Grounded) (hstart : v.HasDirectory start)
    {names : List Name} (h : v.setLinkTimes start ⟨names, true⟩ u = .ok v') :
    ∃ i, i < v.nodes.size ∧ v' = v.setTimes i u ∧
      (v.PartWays start ⟨names, true⟩ u ↔ v.findLink start ⟨names, true⟩ ≠ .ok i) := by
  obtain ⟨i, hi, rfl⟩ := setLinkTimes_dotted hstart.2 h
  obtain ⟨hlt, hdirectory⟩ := openDirectory_hasDirectory hv hstart hi
  obtain ⟨hshort, hleads⟩ := openDirectory_dot_iff.mp hi
  refine ⟨i, hlt, rfl, ?_⟩
  by_cases hsingle : ∃ name, names = [name]
  · obtain ⟨name, rfl⟩ := hsingle
    obtain ⟨j, hj⟩ := exists_entry_of_openDirectory hleads
    obtain ⟨-, hchild⟩ := entry_iff.mp hj
    change _ ↔ v.entry start name ≠ .ok i
    rw [hj]
    constructor
    · rintro (⟨hl, hchild', hnot⟩ | ⟨⟨⟩⟩ | ⟨⟨⟩⟩) hji
      cases hl
      cases hji
      cases hchild.symm.trans hchild'
      rw [hdirectory] at hnot
      cases hnot
    · intro hne
      refine .dot rfl hchild ?_
      by_contra hnot
      have hsame := openDirectory_of_entry hstart.2 hj (by simpa using hnot)
      exact hne (hsame.symm.trans hleads)
  · have hne : ∀ name, names ≠ [name] := fun name hname => hsingle ⟨name, hname⟩
    have hfind : v.find start false ⟨names, true⟩ = .ok i :=
      find_iff.mpr (openDirectory_iff.mp (openDirectory_dot_iff.mpr ⟨hshort, hleads⟩)).1
    rw [findLink_of_ne hne, hfind]
    refine iff_of_false ?_ fun h => h rfl
    rintro (⟨hl, -, -⟩ | ⟨⟨⟩⟩ | ⟨⟨⟩⟩)
    exact hne _ (congrArg Locator.names hl)

/-- Without one it is what the last name is bound to, as long as there is something to be set. -/
theorem setLinkTimes_node_last (hv : v.Grounded) (hstart : v.HasDirectory start)
    (h : v.setLinkTimes start ⟨front ++ [last], false⟩ u = .ok v') :
    ∃ i, i < v.nodes.size ∧ v' = v.setTimes i u ∧
      (v.PartWays start ⟨front ++ [last], false⟩ u ↔
        v.findLink start ⟨front ++ [last], false⟩ ≠ .ok i) := by
  obtain ⟨dir, hdir, hentry⟩ := setLinkTimes_last h
  have hnamesIn : v.NamesIn start (front ++ [last]) dir last := ⟨front, rfl, hdir⟩
  rcases hentry with ⟨i, hi, rfl⟩ | ⟨rfl, rfl, hmissing⟩
  · refine ⟨i, entry_lt_size hv hi, rfl, ?_⟩
    rw [ne_eq, findLink_last_iff hstart.2 hdir, not_and_or, not_or]
    constructor
    · rintro (⟨hl, -, -⟩ | ⟨-, -, hname, hmissing⟩ | ⟨-, hnames, hlong⟩)
      · cases congrArg Locator.dot hl
      · rw [namesIn_append_iff, hdir] at hname
        obtain ⟨rfl, ⟨⟩⟩ := hname
        exact absurd hi (hmissing i)
      · refine .inl ⟨?_, Nat.not_le.mpr hlong⟩
        rintro rfl
        exact absurd hnames (by simp)
    · rintro (⟨hfront, hlong⟩ | hne)
      · have hpositive := List.length_pos_of_ne_nil hfront
        refine .long rfl ?_ (Nat.not_le.mp hlong)
        simp only [List.length_append, List.length_singleton]
        omega
      · exact absurd hi hne
  · -- nothing is set, so any node may be named
    refine ⟨dir, (hnamesIn.hasDirectory hv hstart).1, (setTimes_unchanged v' dir).symm, ?_⟩
    refine iff_of_true (.missing rfl rfl hnamesIn hmissing) fun hfind => ?_
    exact hmissing _ ((findLink_last_iff hstart.2 hdir).mp hfind).2

/-- Which node gets other times where links are not followed. -/
theorem setLinkTimes_node (hv : v.Grounded) (hstart : v.HasDirectory start)
    (h : v.setLinkTimes start l u = .ok v') :
    ∃ i, i < v.nodes.size ∧ v' = v.setTimes i u ∧
      (v.PartWays start l u ↔ v.findLink start l ≠ .ok i) := by
  obtain ⟨names, dot⟩ := l
  cases dot with
  | true => exact setLinkTimes_node_dotted hv hstart h
  | false =>
    rcases List.eq_nil_or_concat' names with rfl | ⟨front, last, rfl⟩
    · cases h
      have hfind : v.findLink start ⟨[], false⟩ = .ok start :=
        find_iff.mpr (openDirectory_iff.mp (openDirectory_nil hstart.2 false false)).1
      rw [hfind]
      refine ⟨start, hstart.1, rfl, iff_of_false ?_ fun h => h rfl⟩
      rintro (⟨⟨⟩⟩ | ⟨-, -, hname⟩ | ⟨-, ⟨⟩⟩)
      exact hname.ne_nil rfl
    · exact setLinkTimes_node_last hv hstart h

end Volume

namespace Resolved

variable {r : Resolved} {v v' : Volume} {ends : Ino → Ends} {follow : Bool} {u : TimeUpdates}

/-- Other times go to another node than the one that is told of at the place. -/
def PartWays (r : Resolved) (v : Volume) (follow : Bool) (u : TimeUpdates) : Prop :=
  follow = false ∧ v.PartWays r.preopen.root r.lookup u

theorem statNode_setTimes (i : Ino) :
    r.statNode (v.setTimes i u) follow = r.statNode v follow := by
  have hsame := v.resembles_setTimes i u
  simp only [statNode, Volume.findLink, hsame.find_eq, hsame.entry_eq]

/-- Which node of a place gets other times. -/
theorem setTimes_node (hv : v.Grounded) (hroot : v.HasDirectory r.preopen.root)
    (h : r.setTimes v ends follow u = .ok v') :
    ∃ i, i < v.nodes.size ∧ v' = v.setTimes i u ∧
      (r.PartWays v follow u ↔ r.statNode v follow ≠ .ok i) := by
  rw [setTimes, fromHost_eq_ok] at h
  cases follow with
  | true =>
    obtain ⟨i, hi, rfl⟩ := Volume.setTimesAt_eq_ok hv hroot h
    refine ⟨i, Volume.find_within hv.closed hroot.1 hi, rfl, ?_⟩
    exact iff_of_false (fun hpart => Bool.noConfusion hpart.1) fun hne => hne hi
  | false =>
    obtain ⟨i, hi, rfl, hpart⟩ := Volume.setLinkTimes_node hv hroot h
    exact ⟨i, hi, rfl, (and_iff_right rfl).trans hpart⟩

end Resolved

end Hostcall
