import Hostcall.Proofs.ReadBack
import Mathlib.Data.List.Perm.Basic

/-!
# What refused requests leave behind

A builder goes on behind a request that fails.  What such a request leaves of itself are strings
only: a list of strings is appended one by one, and those before the first refused one stay.

* `StringList.taken` are those strings;
* `Attempt` is a request to a builder on a host that may refuse it a second handle,
  `World.attempts` follows a list of them, and `World.successes` are the requests among them that
  succeed;
* `World.leftovers` are the strings that failing requests leave behind;
* `World.attempts_eq_successes_iff` compares what attempts build with what the successful requests
  build alone.
-/

namespace Hostcall

namespace StringList

/-! ## Strings up to the first that is refused -/

/-- The strings at the front of a list that are appended, up to the first that is refused. -/
def taken (l : StringList) : List String → List String
  | [] => []
  | s :: rest =>
    match l.push s with
    | .ok l => s :: l.taken rest
    | .error _ => []

theorem total_le_of_sublist {strings strings' : List String} (h : strings'.Sublist strings) :
    total strings' ≤ total strings := by
  induction h with
  | slnil => exact Nat.le_refl _
  | cons s _ ih => exact Nat.le_trans ih (Nat.le_add_left _ _)
  | cons_cons s _ ih => exact Nat.add_le_add_left ih _

variable {l l' m : StringList} {s : String}

/-- What can be appended to a list can be appended to a part of it. -/
theorem push_of_sublist (h : l'.elements.Sublist l.elements) (hpush : l.push s = .ok m) :
    l'.push s = .ok ⟨l'.elements ++ [s]⟩ := by
  have hcount : l'.count ≤ l.count := h.length_le
  have htotal : l'.cumulativeSize ≤ l.cumulativeSize := by
    have := total_le_of_sublist h
    rw [cumulativeSize, cumulativeSize]
    omega
  rw [push] at hpush ⊢
  split at hpush
  · cases hpush
  split at hpush
  · cases hpush
  split at hpush
  · cases hpush
  case isFalse hroom =>
    cases hnul : (utf8 s).findIdx? (· = 0) with
    | some position => simp [hnul] at hpush
    | none => rw [if_neg (by omega), if_neg (by omega), if_neg (by omega)]

theorem eq_of_push (hpush : l.push s = .ok m) : m = ⟨l.elements ++ [s]⟩ :=
  Except.ok.inj (hpush.symm.trans (push_of_sublist (List.Sublist.refl _) hpush))

/-- What is accepted of some strings are those up to the first that is refused. -/
theorem elements_accept (l : StringList) (strings : List String) :
    (l.accept strings).elements = l.elements ++ l.taken strings := by
  induction strings generalizing l with
  | nil => exact (List.append_nil _).symm
  | cons s rest ih =>
    rw [accept, taken]
    cases hpush : l.push s with
    | error e => exact (List.append_nil _).symm
    | ok m =>
      simp only
      rw [ih, eq_of_push hpush, List.append_assoc, List.singleton_append]

theorem taken_singleton (l : StringList) (s : String) : l.taken [s] = [] ∨ l.taken [s] = [s] := by
  rw [taken]
  cases l.push s with
  | error e => exact .inl rfl
  | ok m => exact .inr rfl

/-- Strings that are all appended to a list are all appended to a part of it. -/
theorem taken_of_sublist {strings : List String} (h : l'.elements.Sublist l.elements)
    (htaken : l.taken strings = strings) : l'.taken strings = strings := by
  induction strings generalizing l l' with
  | nil => rfl
  | cons s rest ih =>
    rw [taken] at htaken ⊢
    cases hpush : l.push s with
    | error e => simp [hpush] at htaken
    | ok m =>
      simp only [hpush, List.cons.injEq, true_and] at htaken
      have hm := eq_of_push hpush
      simp only [push_of_sublist h hpush]
      rw [ih (hm ▸ h.append_right [s]) htaken]

end StringList

/-! ## Attempts -/

/-- A request to a builder, and the failure with which the host would refuse it a second handle on
a directory, if it would. -/
structure Attempt where
  setting : Setting
  refusal : Option HostError

namespace World

/-- Follows one request.  The second handle on a preopen's root is asked for as soon as the root is
open. -/
def attempt (w : World) (a : Attempt) : Except SettingError Unit × World :=
  match a.setting, a.refusal with
  | .preopen host guest, some e =>
    match w.volume.openHostDirectory (utf8 host) with
    | .ok _ => (.error (.fault (.ofHost e)), w)
    | .error _ => w.configure (.preopen host guest)
  | s, _ => w.configure s

/-- Follows requests one after another, and goes on behind those that fail. -/
def attempts (w : World) : List Attempt → World
  | [] => w
  | a :: rest => (w.attempt a).2.attempts rest

/-- The requests that succeed, in order. -/
def successes (w : World) : List Attempt → List Setting
  | [] => []
  | a :: rest =>
    match (w.attempt a).1 with
    | .ok () => a.setting :: (w.attempt a).2.successes rest
    | .error _ => (w.attempt a).2.successes rest

/-- The strings that a request leaves behind although it fails. -/
def leftBehind (w : World) (a : Attempt) : List String :=
  match (w.attempt a).1 with
  | .ok () => []
  | .error _ => w.context.args.taken a.setting.givenArgs ++ w.context.env.taken a.setting.givenVars

/-- The strings that failing requests leave behind. -/
def leftovers (w : World) : List Attempt → List String
  | [] => []
  | a :: rest => w.leftBehind a ++ (w.attempt a).2.leftovers rest

/-- The world with other arguments and variables. -/
def withStrings (w : World) (args env : StringList) : World :=
  { w with context := { w.context with args, env } }

end World

namespace Setting

/-- Whether a request asks for strings. -/
def isText : Setting → Bool
  | .arg _ | .args _ | .env _ _ | .envs _ => true
  | .stdio _ _ | .preopen _ _ => false

/-- The strings that a request asks for. -/
def given (s : Setting) : List String := s.givenArgs ++ s.givenVars

end Setting

namespace World

/-! ## Requests for strings -/

section

variable {α : Type} {push : World → α → Except StringListError World} {text : α → String}
  {get : World → StringList} {set : World → StringList → World}
  (hpush : ∀ w a, push w a = ((get w).push (text a)).map (set w))
  (hget : ∀ w l, get (set w l) = l)
include hpush hget

/-- All strings are pushed exactly if none is refused. -/
theorem pushAll_eq_ok_iff (w : World) (list : List α) :
    (pushAll push w list).1 = .ok () ↔ (get w).taken (list.map text) = list.map text := by
  induction list generalizing w with
  | nil => exact iff_of_true rfl rfl
  | cons a rest ih =>
    rw [pushAll, hpush, List.map_cons, StringList.taken]
    cases (get w).push (text a) with
    | error e => simp [Except.map]
    | ok l => simp [Except.map, ih, hget]

end

theorem strings_fst_eq_ok_iff (o : Except StringListError Unit × World) :
    (configure.strings o).1 = .ok () ↔ o.1 = .ok () := by
  rcases o with ⟨_ | _, w⟩ <;> simp [configure.strings]

/-- A request for strings succeeds exactly if none of them is refused. -/
theorem configure_eq_ok_iff (w : World) {s : Setting} (hs : s.isText = true) :
    (w.configure s).1 = .ok () ↔ w.context.args.taken s.givenArgs = s.givenArgs ∧
      w.context.env.taken s.givenVars = s.givenVars := by
  have hargs (w : World) (list : List String) : (configure.strings (pushAll pushArg w list)).1 =
      .ok () ↔ w.context.args.taken list = list := by
    have hlist : (pushAll pushArg w list).1 = .ok () ↔
        w.context.args.taken (list.map id) = list.map id :=
      pushAll_eq_ok_iff (fun _ _ => rfl) (fun _ _ => rfl) w list
    rw [strings_fst_eq_ok_iff, hlist, List.map_id]
  have hvars (w : World) (list : List (String × String)) :
      (configure.strings (pushAll configure.pushVariable w list)).1 = .ok () ↔
        w.context.env.taken (list.map fun v => v.1 ++ "=" ++ v.2) =
          list.map fun v => v.1 ++ "=" ++ v.2 := by
    rw [strings_fst_eq_ok_iff]
    exact pushAll_eq_ok_iff (fun _ _ => rfl) (fun _ _ => rfl) w list
  cases s with
  | arg s => exact (hargs w [s]).trans (and_iff_left rfl).symm
  | args list => exact (hargs w list).trans (and_iff_left rfl).symm
  | env key value => exact (hvars w [(key, value)]).trans (and_iff_right rfl).symm
  | envs list => exact (hvars w list).trans (and_iff_right rfl).symm
  | stdio | preopen => cases hs

/-- A request for strings changes nothing but the strings. -/
theorem configure_snd_of_isText (w : World) {s : Setting} (hs : s.isText = true) :
    (w.configure s).2 =
      w.withStrings (w.context.args.accept s.givenArgs) (w.context.env.accept s.givenVars) := by
  obtain ⟨hargs, henv⟩ := w.configure_strings s
  have hconfigured := w.configure_configured s
  rw [← hargs, ← henv]
  generalize (w.configure s).2 = w' at hconfigured ⊢
  cases hconfigured with
  | refused | strings => rfl
  | stdio | preopen => cases hs

theorem pushPreopen_withStrings (w : World) (args env : StringList) (host : String)
    (guest : Bytes) : (w.withStrings args env).pushPreopen host guest =
      ((w.pushPreopen host guest).1, (w.pushPreopen host guest).2.withStrings args env) := by
  have hvolume : (w.withStrings args env).volume = w.volume := rfl
  rw [pushPreopen, pushPreopen, hvolume]
  cases w.volume.openHostDirectory (utf8 host) with
  | error e => rfl
  | ok root =>
    have htable : (w.withStrings args env).table = w.table := rfl
    have hcount : (w.withStrings args env).context.preopens = w.context.preopens := rfl
    simp only [allocate, htable, hcount]
    cases (w.table.allocate (.directory (.root w.context.preopens.length guest root))).1 <;> rfl

/-- A request for anything else does not look at the strings. -/
theorem configure_withStrings (w : World) (args env : StringList) {s : Setting}
    (hs : s.isText = false) : (w.withStrings args env).configure s =
      ((w.configure s).1, (w.configure s).2.withStrings args env) := by
  cases s with
  | stdio kind stream => rfl
  | preopen host guest =>
    rw [configure, configure, pushPreopen_withStrings]
    rcases w.pushPreopen host guest with ⟨_ | _, w'⟩ <;> rfl
  | arg | args | env | envs => cases hs

theorem given_of_not_isText {s : Setting} (hs : s.isText = false) :
    s.givenArgs = [] ∧ s.givenVars = [] := by
  cases s with
  | stdio | preopen => exact ⟨rfl, rfl⟩
  | arg | args | env | envs => cases hs

/-- A request that succeeds leaves all its strings behind those before. -/
theorem taken_of_ok {w : World} {s : Setting} (hok : (w.configure s).1 = .ok ()) :
    w.context.args.taken s.givenArgs = s.givenArgs ∧
      w.context.env.taken s.givenVars = s.givenVars := by
  cases hs : s.isText with
  | true => exact (w.configure_eq_ok_iff hs).mp hok
  | false =>
    obtain ⟨hargs, hvars⟩ := given_of_not_isText hs
    rw [hargs, hvars]
    exact ⟨rfl, rfl⟩

theorem elements_of_ok {w : World} {s : Setting} (hok : (w.configure s).1 = .ok ()) :
    (w.configure s).2.context.args.elements = w.context.args.elements ++ s.givenArgs ∧
      (w.configure s).2.context.env.elements = w.context.env.elements ++ s.givenVars := by
  obtain ⟨htaken, htaken'⟩ := taken_of_ok hok
  obtain ⟨hargs, hvars⟩ := w.configure_strings s
  rw [hargs, hvars, StringList.elements_accept, StringList.elements_accept, htaken, htaken']
  exact ⟨rfl, rfl⟩

/-- A request that fails leaves strings behind and nothing else. -/
theorem configure_snd_of_error {w : World} {s : Setting} {e : SettingError}
    (herror : (w.configure s).1 = .error e) : (w.configure s).2 =
      w.withStrings (w.context.args.accept s.givenArgs) (w.context.env.accept s.givenVars) := by
  cases hs : s.isText with
  | true => exact w.configure_snd_of_isText hs
  | false =>
    cases s with
    | stdio => cases herror
    | preopen host guest =>
      rcases w.pushPreopen_cases host guest with ⟨fault, hpush⟩ | ⟨root, fd, -, -, hpush⟩
      · rw [configure, hpush]
        rfl
      · rw [configure, hpush] at herror
        cases herror
    | arg | args | env | envs => cases hs

/-! ## One attempt -/

variable {w w' : World} {a : Attempt}

/-- A host that refuses the second handle on a directory is found out before anything is changed. -/
theorem attempt_cases (w : World) (a : Attempt) :
    w.attempt a = w.configure a.setting ∨
      ∃ fault, a.setting.isText = false ∧ w.attempt a = (.error (.fault fault), w) := by
  rw [attempt]
  split
  case h_1 hsetting _ =>
    rw [hsetting]
    split
    · exact .inr ⟨_, rfl, rfl⟩
    · exact .inl rfl
  case h_2 => exact .inl rfl

/-- An attempt appends strings up to the first that is refused, whether it succeeds or not. -/
theorem attempt_strings (w : World) (a : Attempt) :
    (w.attempt a).2.context.args = w.context.args.accept a.setting.givenArgs ∧
      (w.attempt a).2.context.env = w.context.env.accept a.setting.givenVars := by
  rcases w.attempt_cases a with h | ⟨fault, hs, h⟩
  · rw [h]
    exact w.configure_strings a.setting
  · obtain ⟨hargs, hvars⟩ := given_of_not_isText hs
    rw [h, hargs, hvars]
    exact ⟨rfl, rfl⟩

theorem attempt_of_ok (hok : (w.attempt a).1 = .ok ()) : w.attempt a = w.configure a.setting := by
  rcases w.attempt_cases a with h | ⟨fault, -, h⟩
  · exact h
  · rw [h] at hok
    cases hok

/-- An attempt that fails leaves strings behind and nothing else. -/
theorem attempt_snd_of_error {e : SettingError} (herror : (w.attempt a).1 = .error e) :
    (w.attempt a).2 = w.withStrings (w.context.args.accept a.setting.givenArgs)
      (w.context.env.accept a.setting.givenVars) := by
  rcases w.attempt_cases a with h | ⟨fault, hs, h⟩
  · rw [h] at herror ⊢
    exact configure_snd_of_error herror
  · obtain ⟨hargs, hvars⟩ := given_of_not_isText hs
    rw [h, hargs, hvars]
    rfl

/-- Where all strings are taken a request for them does not fail. -/
theorem not_taken_of_error {e : SettingError} (hs : a.setting.isText = true)
    (herror : (w.attempt a).1 = .error e) :
    ¬ (w.context.args.taken a.setting.givenArgs = a.setting.givenArgs ∧
      w.context.env.taken a.setting.givenVars = a.setting.givenVars) := by
  rw [← w.configure_eq_ok_iff hs]
  rcases w.attempt_cases a with h | ⟨fault, hs', -⟩
  · rw [← h, herror]
    nofun
  · rw [hs] at hs'
    cases hs'

/-- Only a request for a list of strings leaves something behind when it fails. -/
theorem leftBehind_eq_nil_or (w : World) (a : Attempt) : w.leftBehind a = [] ∨
    (∃ list, a.setting = .args list) ∨ ∃ list, a.setting = .envs list := by
  rw [leftBehind]
  cases hout : (w.attempt a).1 with
  | ok => exact .inl rfl
  | error e =>
    obtain ⟨s, refusal⟩ := a
    cases s with
    | arg s =>
      left
      rcases w.context.args.taken_singleton s with hnone | hall
      · exact congrArg (· ++ []) hnone
      · exact absurd ⟨hall, rfl⟩ (not_taken_of_error rfl hout)
    | env key value =>
      left
      rcases w.context.env.taken_singleton (key ++ "=" ++ value) with hnone | hall
      · exact hnone
      · exact absurd ⟨rfl, hall⟩ (not_taken_of_error rfl hout)
    | args list => exact .inr (.inl ⟨list, rfl⟩)
    | envs list => exact .inr (.inr ⟨list, rfl⟩)
    | stdio | preopen => exact .inl rfl

/-! ## All attempts -/

/-- The arguments of a guest, and behind them its variables. -/
def strings (w : World) : List String := w.context.args.elements ++ w.context.env.elements

/-- A world that another one would be with some of its strings left out. -/
structure Leaner (w' w : World) : Prop where
  rest : w' = w.withStrings w'.context.args w'.context.env
  args : w'.context.args.elements.Sublist w.context.args.elements
  env : w'.context.env.elements.Sublist w.context.env.elements

namespace Leaner

theorem refl (w : World) : w.Leaner w := ⟨rfl, List.Sublist.refl _, List.Sublist.refl _⟩

/-- What succeeds beside more strings succeeds beside fewer. -/
theorem configure (h : w'.Leaner w) {s : Setting} (hok : (w.configure s).1 = .ok ()) :
    (w'.configure s).1 = .ok () ∧ (w'.configure s).2.Leaner (w.configure s).2 := by
  obtain ⟨htaken, htaken'⟩ := taken_of_ok hok
  have hargs := StringList.taken_of_sublist h.args htaken
  have hvars := StringList.taken_of_sublist h.env htaken'
  cases hs : s.isText with
  | true =>
    refine ⟨(w'.configure_eq_ok_iff hs).mpr ⟨hargs, hvars⟩, ?_⟩
    rw [configure_snd_of_isText _ hs, configure_snd_of_isText _ hs]
    refine ⟨?_, ?_, ?_⟩
    · rw [h.rest]
      rfl
    · show (StringList.accept _ _).elements.Sublist (StringList.accept _ _).elements
      rw [StringList.elements_accept, StringList.elements_accept, htaken, hargs]
      exact h.args.append_right _
    · show (StringList.accept _ _).elements.Sublist (StringList.accept _ _).elements
      rw [StringList.elements_accept, StringList.elements_accept, htaken', hvars]
      exact h.env.append_right _
  | false =>
    -- the strings stay as they are, and the rest does not depend on them
    rw [h.rest, configure_withStrings _ _ _ hs]
    obtain ⟨hgiven, hgiven'⟩ := given_of_not_isText hs
    obtain ⟨hkept, hkept'⟩ := w.configure_strings s
    rw [hgiven] at hkept
    rw [hgiven'] at hkept'
    refine ⟨hok, rfl, ?_, ?_⟩
    · rw [hkept]
      exact h.args
    · rw [hkept']
      exact h.env

/-- A failure leaves the other world with more strings, if with anything. -/
theorem attempt_error (h : w'.Leaner w) {e : SettingError} (herror : (w.attempt a).1 = .error e) :
    w'.Leaner (w.attempt a).2 := by
  rw [attempt_snd_of_error herror]
  refine ⟨h.rest, h.args.trans ?_, h.env.trans ?_⟩
  · show w.context.args.elements.Sublist (StringList.accept _ _).elements
    rw [StringList.elements_accept]
    exact List.sublist_append_left _ _
  · show w.context.env.elements.Sublist (StringList.accept _ _).elements
    rw [StringList.elements_accept]
    exact List.sublist_append_left _ _

/-- What the successful attempts build alone is what all of them build with some strings left out.
All strings of the successful ones are there, in order. -/
theorem build (h : w'.Leaner w) (attempts : List Attempt) :
    (w'.build (w.successes attempts)).Leaner (w.attempts attempts) ∧
      (w'.build (w.successes attempts)).context.args.elements =
        w'.context.args.elements ++ (w.successes attempts).flatMap Setting.givenArgs ∧
      (w'.build (w.successes attempts)).context.env.elements =
        w'.context.env.elements ++ (w.successes attempts).flatMap Setting.givenVars := by
  -- on the attempts, for every pair of worlds that an attempt may leave behind
  induction attempts generalizing w w' with
  | nil => exact ⟨h, (List.append_nil _).symm, (List.append_nil _).symm⟩
  | cons a rest ih =>
    rw [successes, World.attempts]
    cases hout : (w.attempt a).1 with
    | error e => exact ih (h.attempt_error hout)
    | ok =>
      have hattempt := attempt_of_ok hout
      rw [hattempt] at hout ⊢
      obtain ⟨hok, hnext⟩ := h.configure hout
      obtain ⟨hargs, hvars⟩ := elements_of_ok hok
      obtain ⟨hlast, hlater, hlater'⟩ := ih hnext
      simp only [World.build, List.flatMap_cons, ← List.append_assoc, ← hargs, ← hvars]
      exact ⟨hlast, hlater, hlater'⟩

end Leaner

/-- One attempt adds the strings that are taken of its request. -/
theorem attempt_strings_perm (w : World) (a : Attempt) :
    (w.attempt a).2.strings.Perm (w.strings ++ (w.context.args.taken a.setting.givenArgs ++
      w.context.env.taken a.setting.givenVars)) := by
  obtain ⟨hargs, hvars⟩ := w.attempt_strings a
  rw [strings, strings, hargs, hvars, StringList.elements_accept, StringList.elements_accept]
  -- the new arguments stand before the variables, and so a count is easier than a rearrangement
  refine List.perm_iff_count.mpr fun x => ?_
  simp only [List.count_append]
  omega

/-- The strings that are built are those of the successful requests and those left behind by the
others. -/
theorem attempts_strings_perm (w : World) (attempts : List Attempt) :
    (w.attempts attempts).strings.Perm (w.strings ++
      ((w.successes attempts).flatMap Setting.given ++ w.leftovers attempts)) := by
  induction attempts generalizing w with
  | nil => simp [World.attempts, successes, leftovers]
  | cons a rest ih =>
    refine List.perm_iff_count.mpr fun x => ?_
    have hfirst := (w.attempt_strings_perm a).count_eq x
    have hrest := (ih (w.attempt a).2).count_eq x
    rw [World.attempts, successes, leftovers, leftBehind]
    cases hout : (w.attempt a).1 with
    | error e =>
      simp only [List.count_append] at hfirst hrest ⊢
      omega
    | ok =>
      rw [attempt_of_ok hout] at hout
      obtain ⟨hargs, hvars⟩ := taken_of_ok hout
      rw [hargs, hvars] at hfirst
      simp only [List.count_append, List.flatMap_cons, Setting.given, List.nil_append] at hfirst hrest ⊢
      omega

/-- What all attempts build has just those strings more that failing ones leave behind. -/
theorem leftovers_perm (w : World) (attempts : List Attempt) :
    (w.attempts attempts).strings.Perm
      ((w.build (w.successes attempts)).strings ++ w.leftovers attempts) := by
  obtain ⟨-, hargs, hvars⟩ := (Leaner.refl w).build attempts
  have hgiven := List.flatMap_append_perm (w.successes attempts) Setting.givenArgs Setting.givenVars
  refine (w.attempts_strings_perm attempts).trans (List.perm_iff_count.mpr fun x => ?_)
  have := hgiven.count_eq x
  have hfold : (fun s : Setting => s.givenArgs ++ s.givenVars) = Setting.given := rfl
  rw [hfold] at this
  simp only [strings, hargs, hvars, List.count_append] at this ⊢
  omega

/-- Worlds of which one lacks no string of the other are the same. -/
theorem Leaner.eq_of_length (h : w'.Leaner w) (hlength : w'.strings.length = w.strings.length) :
    w' = w := by
  have hargs := h.args.length_le
  have henv := h.env.length_le
  rw [strings, strings, List.length_append, List.length_append] at hlength
  have hargs := h.args.eq_of_length (by omega)
  have henv := h.env.eq_of_length (by omega)
  have hlist {l l' : StringList} (he : l.elements = l'.elements) : l = l' := congrArg StringList.mk he
  rw [h.rest, hlist hargs, hlist henv]
  rfl

/-- A builder that is asked for nothing which the host refuses follows its requests as they are. -/
theorem attempts_settings (w : World) (settings : List Setting) :
    w.attempts (settings.map fun s => ⟨s, none⟩) = w.build settings := by
  induction settings generalizing w with
  | nil => rfl
  | cons s rest ih =>
    have hfirst : w.attempt ⟨s, none⟩ = w.configure s := by
      rw [attempt]
      split
      · contradiction
      · rfl
    rw [List.map_cons, World.attempts, hfirst, ih, World.build]

/-- A builder that goes on behind requests which fail builds what the successful ones build alone,
exactly if no failing request leaves strings behind.  Whatever fails, table, preopens and host are
the same; the successful requests succeed alone, with all their strings; and what all attempts build
has just those strings more that failing requests leave behind.  Only a request for a list of
strings does so, with those before the first refused one. -/
theorem attempts_eq_successes_iff (w : World) (attempts : List Attempt) :
    let built := w.attempts attempts
    let alone := w.build (w.successes attempts)
    (built = alone ↔ w.leftovers attempts = []) ∧
    built = alone.withStrings built.context.args built.context.env ∧
    alone.context.args.elements =
      w.context.args.elements ++ (w.successes attempts).flatMap Setting.givenArgs ∧
    alone.context.env.elements =
      w.context.env.elements ++ (w.successes attempts).flatMap Setting.givenVars ∧
    alone.context.args.elements.Sublist built.context.args.elements ∧
    alone.context.env.elements.Sublist built.context.env.elements ∧
    built.strings.Perm (alone.strings ++ w.leftovers attempts) ∧
    (∀ w a, leftBehind w a = [] ∨
      (∃ list, a.setting = .args list) ∨ ∃ list, a.setting = .envs list) ∧
    ∀ settings, w.attempts (settings.map fun s => ⟨s, none⟩) = w.build settings := by
  intro built alone
  obtain ⟨hbuilt, hargs, hvars⟩ := (Leaner.refl w).build attempts
  have hleaner : alone.Leaner built := hbuilt
  have hperm := w.leftovers_perm attempts
  refine ⟨?_, ?_, hargs, hvars, hleaner.args, hleaner.env, hperm, leftBehind_eq_nil_or,
    w.attempts_settings⟩
  · have hlength := hperm.length_eq
    rw [List.length_append] at hlength
    constructor
    · intro heq
      change built.strings.length = alone.strings.length + _ at hlength
      rw [heq] at hlength
      exact List.eq_nil_of_length_eq_zero (by omega)
    · intro hnone
      rw [hnone] at hlength
      exact (hleaner.eq_of_length hlength.symm).symm
  · rw [hleaner.rest]
    rfl

/-- Lists that hold a refused string at their end. -/
def spoiled : List Attempt :=
  [⟨.args ["first", "bad\x00arg"], none⟩, ⟨.envs [("KEY", "value"), ("BAD", "\x00")], none⟩]

/-- No request succeeds, but an argument and a variable are there. -/
theorem spoiled_leaves_strings :
    let w := fresh default default
    let built := w.attempts spoiled
    w.successes spoiled = [] ∧ w.leftovers spoiled = ["first", "KEY=value"] ∧
      built.context.args.elements = ["first"] ∧ built.context.env.elements = ["KEY=value"] ∧
      built ≠ w.build (w.successes spoiled) := by
  intro w built
  have hsuccesses : w.successes spoiled = [] := by rfl
  have hargs : built.context.args.elements = ["first"] := by rfl
  refine ⟨hsuccesses, by rfl, hargs, by rfl, ?_⟩
  intro heq
  rw [heq, hsuccesses] at hargs
  cases hargs

end World

end Hostcall
