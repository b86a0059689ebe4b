import Hostcall.Call
import Hostcall.Proofs.Beneath
import Hostcall.Proofs.Walking
import Mathlib.Data.List.Nodup
import Mathlib.Data.List.Perm.Subperm

/-!
# A walk through a directory from which entries are removed

A cookie is a position in the listing as it stands.  When entries before it are removed, those
behind it move to the front, and the walk goes on too far behind them.

* `World.Removes` is what a guest may do between two requests: it unlinks, and in the directory
  itself only what it was told;
* `Walks` is a walk to its end with such removals in between, `Walks.reports` what it tells;
* `Walks.reports_all_iff` says that nothing is missed if and only if nothing is removed while
  something is still to be told.
-/

namespace Hostcall

theorem eq_append_of_sublist {α : Type} {front back left : List α}
    (h : left.Sublist (front ++ back)) (hnodup : (front ++ back).Nodup)
    (hback : ∀ x ∈ back, x ∈ left) : ∃ front', front'.Sublist front ∧ left = front' ++ back := by
  obtain ⟨front', back', rfl, hfront', hback'⟩ := List.sublist_append_iff.mp h
  obtain ⟨-, hnodup, hdisjoint⟩ := List.nodup_append.mp hnodup
  have hsubset : back ⊆ back' := by
    intro x hx
    rcases List.mem_append.mp (hback x hx) with hx' | hx'
    · exact absurd rfl (hdisjoint x (hfront'.subset hx') x hx)
    · exact hx'
  -- a list without repetitions that holds all of `back` is no shorter
  have hle : back.length ≤ back'.length := (List.subperm_of_subset hnodup hsubset).length_le
  exact ⟨front', hfront', by rw [hback'.eq_of_length_le hle]⟩

/-- What is removed before a position moves the rest to the front. -/
theorem drop_of_sublist {α : Type} {list left : List α} {k : Nat} (h : left.Sublist list)
    (hnodup : list.Nodup) (hk : k ≤ list.length) (hkept : ∀ x ∈ list.drop k, x ∈ left) :
    ∃ removed, left.drop k = (list.drop k).drop removed ∧ (removed = 0 → left = list) := by
  rw [← List.take_append_drop k list] at h hnodup
  obtain ⟨front, hfront, rfl⟩ := eq_append_of_sublist h hnodup hkept
  have hlength := hfront.length_le
  rw [List.length_take, Nat.min_eq_left hk] at hlength
  refine ⟨k - front.length, ?_, fun hnone => ?_⟩
  · rw [List.drop_append, List.drop_of_length_le hlength, List.nil_append]
  · have hwhole : front = list.take k := by
      apply hfront.eq_of_length_le
      rw [List.length_take]
      omega
    rw [hwhole, List.take_append_drop]

theorem head_notMem_drop {α : Type} {x : α} {rest : List α} {removed : Nat}
    (hnodup : (x :: rest).Nodup) (h : removed ≠ 0) : x ∉ (x :: rest).drop removed := by
  obtain ⟨n, rfl⟩ := Nat.exists_eq_succ_of_ne_zero h
  intro hx
  exact (List.nodup_cons.mp hnodup).1 (List.mem_of_mem_drop hx)

/-! ## Unlinking -/

theorem Volume.unlink_eq_ok {v v' : Volume} {start : Ino} {names : List Name}
    (h : v.unlink start names = .ok v') : ∃ dir name i, v' = v.unbind dir name i := by
  rw [unlink] at h
  split at h
  case h_1 => cases h
  case h_2 =>
    obtain ⟨⟨dir, name⟩, -, h⟩ := bind_eq_ok.mp h
    obtain ⟨i, -, h⟩ := bind_eq_ok.mp h
    split at h
    · cases h
    · cases h
      exact ⟨dir, name, i, rfl⟩

theorem Volume.entries_unbind_sublist (v : Volume) (dir : Ino) (name : Name) (i j : Ino) :
    ((v.unbind dir name i).entries j).Sublist (v.entries j) := by
  rw [entries_unbind]
  split
  case isTrue h =>
    rw [h.1]
    exact List.filter_sublist
  case isFalse => exact List.Sublist.refl _

namespace World

variable {w w' : World} {fd size : Nat} {d : Directory}

/-- A call that unlinks. -/
def Unlinks (c : Call) : Prop := ∃ dirfd path, c = .pathUnlinkFile dirfd path

theorem call_unlinks (w : World) {c : Call} (hc : Unlinks c) (i : Ino) :
    (w.call c).2.table = w.table ∧ ((w.call c).2.volume.entries i).Sublist (w.volume.entries i) := by
  obtain ⟨dirfd, path, rfl⟩ := hc
  change (w.changed _).2.table = w.table ∧ ((w.changed _).2.volume.entries i).Sublist _
  cases hunlink : (do (← w.resolve dirfd path).unlink w.volume : Outcome Volume) with
  | error fault => exact ⟨rfl, List.Sublist.refl _⟩
  | ok v =>
    obtain ⟨r, -, h⟩ := bind_eq_ok.mp hunlink
    rw [Resolved.unlink] at h
    split at h
    · obtain ⟨_, -, h⟩ := bind_eq_ok.mp h
      cases h
    · obtain ⟨dir, name, j, rfl⟩ := Volume.unlink_eq_ok (fromHost_eq_ok.mp h)
      exact ⟨rfl, w.volume.entries_unbind_sublist dir name j i⟩

theorem run_unlinks {calls : List Call} (hcalls : ∀ c ∈ calls, Unlinks c) (i : Ino) :
    (w.run calls).table = w.table ∧
      ((w.run calls).volume.entries i).Sublist (w.volume.entries i) := by
  induction calls generalizing w with
  | nil => exact ⟨rfl, List.Sublist.refl _⟩
  | cons c rest ih =>
    obtain ⟨hc, hrest⟩ := List.forall_mem_cons.mp hcalls
    obtain ⟨htable, hentries⟩ := w.call_unlinks hc i
    obtain ⟨htable', hentries'⟩ := ih (w := (w.call c).2) hrest
    exact ⟨htable'.trans htable, hentries'.trans hentries⟩

/-- The names that a directory lists. -/
def listedNames (w : World) (d : Directory) : List Name := Listing.names w.volume d.ino

/-- What a guest does between two requests: it unlinks, and of the directory it lists nothing that
it was not told of. -/
structure Removes (d : Directory) (told : List Record) (w w' : World) : Prop where
  calls : ∃ calls, (∀ c ∈ calls, Unlinks c) ∧ w' = w.run calls
  told : ∀ name ∈ w.listedNames d, name ∉ w'.listedNames d → name ∈ told.map Record.name

namespace Removes

variable {told : List Record}

theorem table (h : w.Removes d told w') : w'.table = w.table := by
  obtain ⟨calls, hcalls, rfl⟩ := h.calls
  exact (run_unlinks hcalls d.ino).1

theorem entries (h : w.Removes d told w') :
    (w'.volume.entries d.ino).Sublist (w.volume.entries d.ino) := by
  obtain ⟨calls, hcalls, rfl⟩ := h.calls
  exact (run_unlinks hcalls d.ino).2

theorem names (h : w.Removes d told w') : (w'.listedNames d).Sublist (w.listedNames d) :=
  ((h.entries.map Prod.fst).cons_cons _).cons_cons _

end Removes

end World

/-! ## Walks -/

/-- A gap between two requests, and the cookie that is carried over it. -/
structure Gap where
  before : World
  cookie : Nat
  after : World

/-- A walk through a directory from a cookie on, after some records were told: the gaps that it
still makes, and all records and the world at its end. -/
inductive Walks (fd : Nat) (d : Directory) (size : Nat) :
    World → Nat → List Record → List Gap → List Record → World → Prop where
  | done {w : World} {cookie : Nat} {told : List Record} {buffer used : Bytes}
      (hbuffer : buffer.length = size) (hused : w.listedAt fd buffer cookie = .ok used)
      (hshort : used.length < size) :
      Walks fd d size w cookie told [] (told ++ (Record.parse used).1) w
  | next {w w' final : World} {cookie cookie' : Nat} {told all : List Record}
      {buffer used : Bytes} {gaps : List Gap} (hbuffer : buffer.length = size)
      (hused : w.listedAt fd buffer cookie = .ok used) (hfull : ¬ used.length < size)
      (hlast : (Record.parse used).1.getLast?.map Record.next = some cookie')
      (hgap : w.Removes d (told ++ (Record.parse used).1) w')
      (hrest : Walks fd d size w' cookie' (told ++ (Record.parse used).1) gaps all final) :
      Walks fd d size w cookie told (⟨w, cookie', w'⟩ :: gaps) all final

/-- A gap in which nothing is removed or nothing is left to be told. -/
def Gap.Harmless (d : Directory) (g : Gap) : Prop :=
  g.after.listedNames d = g.before.listedNames d ∨ (g.before.listedNames d).length ≤ g.cookie

instance (d : Directory) (g : Gap) : Decidable (g.Harmless d) :=
  inferInstanceAs (Decidable (_ ∨ _))

namespace Walks

variable {fd size : Nat} {d : Directory} {w final : World} {cookie : Nat} {told all : List Record}
  {gaps : List Gap}

/-- What a walk tells from a cookie on. -/
structure Reports (d : Directory) (w : World) (cookie : Nat) (told : List Record)
    (gaps : List Gap) (all : List Record) (final : World) : Prop where
  names : (final.listedNames d).Sublist (w.listedNames d)
  removed : ∀ name ∈ w.listedNames d, name ∉ final.listedNames d → name ∈ all.map Record.name
  later : ∃ later : List Record, all = told ++ later ∧
    (later.map Record.name).Sublist ((w.listedNames d).drop cookie) ∧
    ((∀ name ∈ (w.listedNames d).drop cookie, name ∈ final.listedNames d →
        name ∈ later.map Record.name) ↔ ∀ g ∈ gaps, g.Harmless d)

theorem map_name_drop (w : World) (d : Directory) (cookie : Nat) :
    ((Listing.records w.volume d.ino).drop cookie).map Record.name =
      (w.listedNames d).drop cookie := by
  rw [List.map_drop, Listing.map_name_records]
  rfl

/-- A round tells the front of what is left, up to a cookie. -/
structure Round (w : World) (d : Directory) (cookie : Nat) (round : List Record) (cookie' : Nat) :
    Prop where
  le_length : cookie' ≤ (w.listedNames d).length
  split : (w.listedNames d).drop cookie =
    round.map Record.name ++ (w.listedNames d).drop cookie'

section

variable {w' : World} {round : List Record} {cookie' : Nat}

theorem Round.notMem (hround : Round w d cookie round cookie') (hnodup : (w.listedNames d).Nodup)
    (htold : ∀ name ∈ (w.listedNames d).drop cookie, name ∉ told.map Record.name) :
    ∀ name ∈ (w.listedNames d).drop cookie', name ∉ (told ++ round).map Record.name := by
  intro name hname
  have hpending := hnodup.sublist (List.drop_sublist cookie (w.listedNames d))
  rw [hround.split] at htold hpending
  rw [List.map_append, List.mem_append, not_or]
  refine ⟨htold name (List.mem_append_right _ hname), fun htaken => ?_⟩
  exact (List.nodup_append.mp hpending).2.2 name htaken name hname rfl

theorem Round.gap (hround : Round w d cookie round cookie') (hnodup : (w.listedNames d).Nodup)
    (hleft : ∀ name ∈ (w.listedNames d).drop cookie', name ∉ (told ++ round).map Record.name)
    (hgap : w.Removes d (told ++ round) w') :
    (∀ name ∈ (w.listedNames d).drop cookie', name ∈ w'.listedNames d) ∧
      ∃ removed, (w'.listedNames d).drop cookie' = ((w.listedNames d).drop cookie').drop removed ∧
        (removed = 0 → w'.listedNames d = w.listedNames d) := by
  -- what is left was not told, so it may not be removed
  have hkept : ∀ name ∈ (w.listedNames d).drop cookie', name ∈ w'.listedNames d := by
    intro name hname
    by_contra hgone
    exact hleft name hname (hgap.told name (List.mem_of_mem_drop hname) hgone)
  exact ⟨hkept, drop_of_sublist hgap.names hnodup hround.le_length hkept⟩

/-- When something is removed while something is left, the first that is left is passed over,
though it is there to the end. -/
theorem Reports.passed_over {later : List Record} {first : Name} {rest : List Name}
    {removed : Nat} (h : Reports d w' cookie' told gaps (told ++ later) final)
    (hnodup : (first :: rest).Nodup) (hremoved : removed ≠ 0)
    (hlater : (later.map Record.name).Sublist ((first :: rest).drop removed))
    (hkept : first ∈ w'.listedNames d) (htold : first ∉ told.map Record.name) :
    first ∈ final.listedNames d ∧ first ∉ later.map Record.name := by
  have hpassed : first ∉ later.map Record.name := fun hfirst =>
    head_notMem_drop hnodup hremoved (hlater.subset hfirst)
  refine ⟨?_, hpassed⟩
  by_contra hgone
  have hall := h.removed first hkept hgone
  rw [List.map_append] at hall
  exact (List.mem_append.mp hall).elim htold hpassed

theorem Reports.harmless_of_complete {later : List Record} {removed : Nat}
    (h : Reports d w' cookie' told gaps (told ++ later) final)
    (hnodup : ((w.listedNames d).drop cookie').Nodup)
    (hsame : removed = 0 → w'.listedNames d = w.listedNames d)
    (hlater : (later.map Record.name).Sublist (((w.listedNames d).drop cookie').drop removed))
    (hkept : ∀ name ∈ (w.listedNames d).drop cookie', name ∈ w'.listedNames d)
    (hleft : ∀ name ∈ (w.listedNames d).drop cookie', name ∉ told.map Record.name)
    (hall : ∀ name ∈ (w.listedNames d).drop cookie', name ∈ final.listedNames d →
      name ∈ later.map Record.name) : Gap.Harmless d ⟨w, cookie', w'⟩ := by
  by_cases hnone : removed = 0
  · exact .inl (hsame hnone)
  · apply Or.inr
    rw [← List.drop_eq_nil_iff]
    cases hnames : (w.listedNames d).drop cookie' with
    | nil => rfl
    | cons first rest =>
      rw [hnames] at hnodup hlater hleft hkept hall
      obtain ⟨hfinal, hpassed⟩ := h.passed_over hnodup hnone hlater
        (hkept first List.mem_cons_self) (hleft first List.mem_cons_self)
      exact absurd (hall first List.mem_cons_self hfinal) hpassed

/-- One round and the gap behind it, before the rest of a walk. -/
theorem Reports.step (hround : Round w d cookie round cookie') (hnodup : (w.listedNames d).Nodup)
    (hleft : ∀ name ∈ (w.listedNames d).drop cookie', name ∉ (told ++ round).map Record.name)
    (hgap : w.Removes d (told ++ round) w')
    (h : Reports d w' cookie' (told ++ round) gaps all final) :
    Reports d w cookie told (⟨w, cookie', w'⟩ :: gaps) all final := by
  obtain ⟨hkept, removed, hdrop, hsame⟩ := hround.gap hnodup hleft hgap
  obtain ⟨later, rfl, hlater, hiff⟩ := h.later
  have hbehind := hnodup.sublist (List.drop_sublist cookie' (w.listedNames d))
  rw [hdrop] at hlater hiff
  refine ⟨h.names.trans hgap.names, ?_, round ++ later, by rw [List.append_assoc], ?_, ?_⟩
  · intro name hname hgone
    by_cases hgone' : name ∈ w'.listedNames d
    · exact h.removed name hgone' hgone
    · rw [List.map_append]
      exact List.mem_append_left _ (hgap.told name hname hgone')
  · rw [hround.split, List.map_append]
    exact (List.Sublist.refl _).append (hlater.trans (List.drop_sublist _ _))
  · rw [List.forall_mem_cons, hround.split, List.map_append]
    constructor
    · intro hall
      -- what is left behind this round has to be told after it
      have hall' : ∀ name ∈ (w.listedNames d).drop cookie', name ∈ final.listedNames d →
          name ∈ later.map Record.name := by
        intro name hname hfinal
        have htold := hall name (List.mem_append_right _ hname) hfinal
        refine (List.mem_append.mp htold).resolve_left fun htaken => hleft name hname ?_
        rw [List.map_append]
        exact List.mem_append_right _ htaken
      refine ⟨h.harmless_of_complete hbehind hsame hlater hkept hleft hall', hiff.mp ?_⟩
      exact fun name hname => hall' name (List.mem_of_mem_drop hname)
    · rintro ⟨hharmless, hrest⟩ name hname hfinal
      rcases List.mem_append.mp hname with htaken | hname
      · exact List.mem_append_left _ htaken
      apply List.mem_append_right
      rcases hharmless with hnames | hnothing
      · apply hiff.mpr hrest name _ hfinal
        rw [← hdrop]
        exact hnames ▸ hname
      · rw [List.drop_of_length_le hnothing] at hname
        cases hname

end

theorem reports (h : Walks fd d size w cookie told gaps all final)
    (hd : w.table.get? fd = some (.directory d)) (hlegible : Listing.Legible w.volume d.ino size)
    (hnodup : (w.listedNames d).Nodup) (hcookie : cookie < UInt64.size)
    (htold : ∀ name ∈ (w.listedNames d).drop cookie, name ∉ told.map Record.name) :
    Reports d w cookie told gaps all final := by
  induction h with
  | @done w cookie told buffer used hbuffer hused hshort =>
    rw [World.listedAt_eq hd hlegible hbuffer hcookie] at hused
    cases hused
    rw [Walk.parse_of_short hlegible.fits hshort]
    refine ⟨List.Sublist.refl _, fun name hname hgone => absurd hname hgone, _, rfl, ?_, ?_⟩
    · rw [map_name_drop]
    · rw [map_name_drop]
      exact ⟨fun _ => nofun, fun _ name hname _ => hname⟩
  | @next w w' final cookie cookie' told all buffer used gaps hbuffer hused hfull hlast hgap _ ih =>
    rw [World.listedAt_eq hd hlegible hbuffer hcookie] at hused
    cases hused
    obtain ⟨count, last, -, hle, hparse, hlast', hgo⟩ := Walk.parse_of_full hlegible.size_pos
      hlegible.fits hlegible.encode_le (fun _ _ => Listing.next_of_getElem?) hfull
    rw [hparse] at hlast hgap ih
    rw [hlast', Option.map_some, hgo] at hlast
    cases hlast
    have hround : Round w d cookie (((Listing.records w.volume d.ino).drop cookie).take count)
        (cookie + count) := by
      rw [Listing.length_records] at hle
      refine ⟨hle, ?_⟩
      rw [List.map_take, map_name_drop, ← List.drop_drop, List.take_append_drop]
    have hleft := hround.notMem hnodup htold
    refine Reports.step hround hnodup hleft hgap ?_
    apply ih
    · rw [hgap.table]
      exact hd
    · exact hlegible.sublist hgap.entries
    · exact hnodup.sublist hgap.names
    · exact Nat.lt_of_le_of_lt hround.le_length hlegible.positions
    · obtain ⟨-, removed, hdrop, -⟩ := hround.gap hnodup hleft hgap
      rw [hdrop]
      exact fun name hname => hleft name (List.mem_of_mem_drop hname)

/-- A walk tells every name that is there to its end exactly once, if and only if in no gap
something is removed while something is left to be told. -/
theorem reports_all_iff (h : Walks fd d size w 0 [] gaps all final)
    (hd : w.table.get? fd = some (.directory d)) (hlegible : Listing.Legible w.volume d.ino size)
    (hnodup : (w.listedNames d).Nodup) :
    (∀ name ∈ final.listedNames d, (all.map Record.name).count name = 1) ↔
      ∀ g ∈ gaps, g.Harmless d := by
  have hreports := h.reports hd hlegible hnodup (by decide) (by simp)
  obtain ⟨later, rfl, hlater, hiff⟩ := hreports.later
  have honce := hnodup.sublist hlater
  rw [← hiff]
  constructor
  · intro hall name _ hfinal
    rw [← List.count_pos_iff, hall name hfinal]
    exact Nat.one_pos
  · intro hall name hfinal
    exact List.count_eq_one_of_mem honce (hall name (hreports.names.subset hfinal) hfinal)

theorem done_of_drop_eq_nil (hd : w.table.get? fd = some (.directory d))
    (hlegible : Listing.Legible w.volume d.ino size) (hcookie : cookie < UInt64.size)
    (hnothing : (Listing.records w.volume d.ino).drop cookie = []) :
    Walks fd d size w cookie told [] told w := by
  have hbuffer : (List.replicate size (0 : UInt8)).length = size := List.length_replicate
  have hused := World.listedAt_eq hd hlegible hbuffer hcookie
  rw [hnothing] at hused
  have hempty : (Record.encodeAll []).take size = [] := List.take_nil
  have hparse : (Record.parse []).1 = [] := by simp [Record.parse, Dirent.size]
  rw [hempty] at hused
  have hdone : Walks fd d size w cookie told [] (told ++ (Record.parse []).1) w :=
    done hbuffer hused hlegible.size_pos
  rwa [hparse, List.append_nil] at hdone

/-- The guest unlinks `a` when it was told of it. -/
def cleared : World := (World.shelf.call (.pathUnlinkFile 3 "a")).2

theorem shelf_removes : World.shelf.Removes (.root 0 [47] 0)
    ((Listing.records World.shelf.volume 0).take 3) cleared := by
  refine ⟨⟨[.pathUnlinkFile 3 "a"], ?_, rfl⟩, by decide +kernel⟩
  simp only [List.forall_mem_singleton]
  exact ⟨3, "a", rfl⟩

theorem cleared_directory : cleared.table.get? 3 = some (.directory (.root 0 [47] 0)) := by
  rw [shelf_removes.table]
  exact World.shelf_directory

theorem shelf_walk : Walks 3 (.root 0 [47] 0) 76 World.shelf 0 [] [⟨World.shelf, 3, cleared⟩]
    ((Listing.records World.shelf.volume 0).take 3) cleared := by
  have hbuffer : (List.replicate 76 (0 : UInt8)).length = 76 := List.length_replicate
  have hlegible : Listing.Legible World.shelf.volume 0 76 :=
    World.shelf_legible (by decide) (by decide)
  have hused : World.shelf.listedAt 3 (List.replicate 76 0) 0 =
      .ok ((Record.encodeAll ((Listing.records World.shelf.volume 0).drop 0)).take 76) :=
    World.listedAt_eq World.shelf_directory hlegible hbuffer (by decide)
  have hparse : (Record.parse ((Record.encodeAll ((Listing.records World.shelf.volume 0).drop 0)).take
      76)).1 = (Listing.records World.shelf.volume 0).take 3 := by
    rw [List.drop_zero, Record.parse_take hlegible.fits]
    decide +kernel
  have hend : Walks 3 (.root 0 [47] 0) 76 cleared 3 ((Listing.records World.shelf.volume 0).take 3)
      [] ((Listing.records World.shelf.volume 0).take 3) cleared :=
    done_of_drop_eq_nil cleared_directory (hlegible.sublist shelf_removes.entries) (by decide)
      (by decide +kernel)
  rw [← hparse] at hend ⊢
  refine next hbuffer hused (by decide +kernel) ?_ ?_ hend
  · rw [hparse]
    decide +kernel
  · rw [hparse]
    exact shelf_removes

/-- The walk was not told of `b`, which was there all the time. -/
theorem shelf_misses : Listing.Legible World.shelf.volume 0 76 ∧
    (World.shelf.listedNames (.root 0 [47] 0)).Nodup ∧
    Walks 3 (.root 0 [47] 0) 76 World.shelf 0 [] [⟨World.shelf, 3, cleared⟩]
      ((Listing.records World.shelf.volume 0).take 3) cleared ∧
    utf8 "b" ∈ World.shelf.listedNames (.root 0 [47] 0) ∧
    utf8 "b" ∈ cleared.listedNames (.root 0 [47] 0) ∧
    utf8 "b" ∉ ((Listing.records World.shelf.volume 0).take 3).map Record.name :=
  ⟨World.shelf_legible (by decide) (by decide), by decide +kernel, shelf_walk, by decide +kernel,
    by decide +kernel, by decide +kernel⟩

theorem reports_all_iff_shelf : ¬ ∀ name ∈ cleared.listedNames (.root 0 [47] 0),
    (((Listing.records World.shelf.volume 0).take 3).map Record.name).count name = 1 := by
  have hiff := reports_all_iff shelf_walk World.shelf_directory
    (World.shelf_legible (by decide) (by decide)) (by decide +kernel)
  rw [hiff]
  decide +kernel

end Walks

end Hostcall
