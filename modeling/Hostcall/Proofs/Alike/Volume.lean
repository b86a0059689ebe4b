import Hostcall.Proofs.Outcome
import Hostcall.Proofs.Volume
import Mathlib.Data.List.Forall2

/-!
# Volumes that look alike

Two volumes look alike along a relation of their nodes if related nodes cannot be told apart
but by their numbers.

* `Alike` compares two answers: both fail with the same error, or both succeed with related
  values;
* `Body.Alike` and `Node.Alike` compare nodes, `Volume.Alike` volumes;
* every change of related nodes by related amounts keeps volumes alike.
-/

namespace Hostcall

/-! ## Answers -/

/-- Both fail with the same error, or both succeed with related values. -/
inductive Alike {ε α β : Type} (S : α → β → Prop) : Except ε α → Except ε β → Prop where
  | ok {a : α} {b : β} (h : S a b) : Alike S (.ok a) (.ok b)
  | error (e : ε) : Alike S (.error e) (.error e)

namespace Alike

variable {ε α β γ δ : Type} {S : α → β → Prop} {T : γ → δ → Prop}

theorem bind {x : Except ε α} {y : Except ε β} {f : α → Except ε γ} {g : β → Except ε δ}
    (h : Alike S x y) (hf : ∀ a b, S a b → Alike T (f a) (g b)) : Alike T (x >>= f) (y >>= g) := by
  cases h with
  | ok h => exact hf _ _ h
  | error e => exact .error e

theorem map {x : Except ε α} {y : Except ε β} {f : α → γ} {g : β → δ} (h : Alike S x y)
    (hf : ∀ a b, S a b → T (f a) (g b)) : Alike T (x.map f) (y.map g) := by
  cases h with
  | ok h => exact .ok (hf _ _ h)
  | error e => exact .error e

theorem fromHost {x : Except HostError α} {y : Except HostError β} (h : Alike S x y) :
    Alike S (fromHost x) (fromHost y) := by
  cases h with
  | ok h => exact .ok h
  | error e => exact .error _

theorem refl (x : Except ε α) : Alike Eq x x := by
  cases x with
  | ok a => exact .ok rfl
  | error e => exact .error e

theorem eq {x y : Except ε α} (h : Alike Eq x y) : x = y := by
  cases h with
  | ok h => rw [h]
  | error e => rfl

end Alike

/-! ## Nodes -/

variable {R : Ino → Ino → Prop}

/-- The same name for related nodes. -/
def EntryAlike (R : Ino → Ino → Prop) (e e' : Name × Ino) : Prop := e.1 = e'.1 ∧ R e.2 e'.2

/-- Bodies that cannot be told apart.  Of a file only its bytes can be told, of a named pipe
also where its pages end. -/
inductive Body.Alike (R : Ino → Ino → Prop) : Body → Body → Prop where
  | directory {entries entries' : List (Name × Ino)}
      (h : List.Forall₂ (EntryAlike R) entries entries') :
      Body.Alike R (.directory entries) (.directory entries')
  | file {content content' : Content} (h : content.toList = content'.toList) :
      Body.Alike R (.file content) (.file content')
  | link (target : Bytes) : Body.Alike R (.link target) (.link target)
  | fifo (queue : Fifo) : Body.Alike R (.fifo queue) (.fifo queue)
  | socket : Body.Alike R .socket .socket
  | device (d : CharacterDevice) : Body.Alike R (.device d) (.device d)

/-- Nodes that cannot be told apart. -/
structure Node.Alike (R : Ino → Ino → Prop) (n n' : Node) : Prop where
  body : n.body.Alike R n'.body
  links : n.links = n'.links
  accessed : n.accessed = n'.accessed
  modified : n.modified = n'.modified

namespace Body.Alike

variable {b b' : Body}

theorem isDirectory_eq (h : b.Alike R b') : b.isDirectory = b'.isDirectory := by
  cases h <;> rfl

theorem fileType_eq (h : b.Alike R b') : b.fileType = b'.fileType := by
  cases h <;> rfl

theorem size_eq (h : b.Alike R b') : b.size = b'.size := by
  cases h with
  | file h => rw [Body.size, Body.size, ← Content.length_toList, ← Content.length_toList, h]
  | directory | link | fifo | socket | device => rfl

theorem entries (h : b.Alike R b') : List.Forall₂ (EntryAlike R) b.entries b'.entries := by
  cases h with
  | directory h => exact h
  | file | link | fifo | socket | device => exact .nil

theorem mono {Q : Ino → Ino → Prop} (hRQ : ∀ i j, R i j → Q i j) (h : b.Alike R b') :
    b.Alike Q b' := by
  cases h with
  | directory h => exact .directory (h.imp fun _ _ he => ⟨he.1, hRQ _ _ he.2⟩)
  | file h => exact .file h
  | link target => exact .link target
  | fifo queue => exact .fifo queue
  | socket => exact .socket
  | device d => exact .device d

end Body.Alike

theorem lookup_alike {entries entries' : List (Name × Ino)}
    (h : List.Forall₂ (EntryAlike R) entries entries') (name : Name) :
    Option.Rel R (entries.lookup name) (entries'.lookup name) := by
  induction h with
  | nil => exact .none
  | @cons e e' rest rest' he _ ih =>
    rw [List.lookup_cons, List.lookup_cons, he.1]
    cases name == e'.1 with
    | true => exact .some he.2
    | false => exact ih

/-! ## Volumes -/

/-- Volumes whose related nodes look alike.  The numbers of the nodes that come next are
related already. -/
structure Volume.Alike (R : Ino → Ino → Prop) (v v' : Volume) : Prop where
  unique : Relator.BiUnique R
  clock : v.clock = v'.clock
  fresh : ∀ k, R (v.nodes.size + k) (v'.nodes.size + k)
  node : ∀ i j, R i j → (v.node i).Alike R (v'.node j)

namespace Volume.Alike

variable {v v' : Volume} {i j : Ino}

theorem eq_iff (h : v.Alike R v') {i' j' : Ino} (hij : R i j) (hij' : R i' j') :
    i = i' ↔ j = j' := by
  constructor
  · rintro rfl
    exact h.unique.2 hij hij'
  · rintro rfl
    exact h.unique.1 hij hij'

theorem lt_size_iff (h : v.Alike R v') (hij : R i j) :
    i < v.nodes.size ↔ j < v'.nodes.size := by
  constructor
  · intro hi
    by_contra hj
    -- a number still to come is related to one still to come, and to no other
    obtain ⟨k, rfl⟩ := Nat.exists_eq_add_of_le (Nat.not_lt.mp hj)
    rw [h.unique.1 hij (h.fresh k)] at hi
    exact Nat.not_lt.mpr (Nat.le_add_right _ _) hi
  · intro hj
    by_contra hi
    obtain ⟨k, rfl⟩ := Nat.exists_eq_add_of_le (Nat.not_lt.mp hi)
    rw [h.unique.2 hij (h.fresh k)] at hj
    exact Nat.not_lt.mpr (Nat.le_add_right _ _) hj

theorem body (h : v.Alike R v') (hij : R i j) : (v.body i).Alike R (v'.body j) :=
  (h.node i j hij).body

theorem isDirectory_eq (h : v.Alike R v') (hij : R i j) : v.isDirectory i = v'.isDirectory j :=
  (h.body hij).isDirectory_eq

theorem isGone_eq (h : v.Alike R v') (hij : R i j) : v.isGone i = v'.isGone j := by
  rw [isGone, isGone, (h.node i j hij).links]

theorem entries (h : v.Alike R v') (hij : R i j) :
    List.Forall₂ (EntryAlike R) (v.entries i) (v'.entries j) := (h.body hij).entries

theorem child? (h : v.Alike R v') (hij : R i j) (name : Name) :
    Option.Rel R (v.child? i name) (v'.child? j name) := lookup_alike (h.entries hij) name

/-- What a node tells of itself, but for its number. -/
theorem attributes_eq (h : v.Alike R v') (hij : R i j) :
    { v.attributes i with inode := 0 } = { v'.attributes j with inode := 0 } := by
  have hnode := h.node i j hij
  simp only [attributes, hnode.links, hnode.accessed, hnode.modified, hnode.body.fileType_eq,
    hnode.body.size_eq]

/-! ## Changes -/

theorem modify (h : v.Alike R v') (hij : R i j) {f f' : Node → Node}
    (hf : (f (v.node i)).Alike R (f' (v'.node j))) : (v.modify i f).Alike R (v'.modify j f') := by
  refine ⟨h.unique, h.clock, fun k => ?_, fun a b hab => ?_⟩
  · rw [size_modify, size_modify]
    exact h.fresh k
  · -- of related nodes both are changed or both are left
    have hsame := and_congr (h.eq_iff hab hij) (h.lt_size_iff hij)
    rw [node_modify, node_modify]
    split
    case isTrue hi =>
      rw [if_pos (hsame.mp hi)]
      exact hf
    case isFalse hi =>
      rw [if_neg (mt hsame.mpr hi)]
      exact h.node a b hab

theorem setBody (h : v.Alike R v') (hij : R i j) {b b' : Body} (hb : b.Alike R b') :
    (v.setBody i b).Alike R (v'.setBody j b') :=
  h.modify hij ⟨hb, (h.node i j hij).links, (h.node i j hij).accessed, (h.node i j hij).modified⟩

theorem replaceBody (h : v.Alike R v') (hij : R i j) {b b' : Body} (hb : b.Alike R b') :
    (v.replaceBody i b).Alike R (v'.replaceBody j b') :=
  h.modify hij ⟨hb, (h.node i j hij).links, (h.node i j hij).accessed, h.clock⟩

theorem setTimes (h : v.Alike R v') (hij : R i j) (u : TimeUpdates) :
    (v.setTimes i u).Alike R (v'.setTimes j u) := by
  have hnode := h.node i j hij
  refine h.modify hij ⟨hnode.body, hnode.links, ?_, ?_⟩
  · simp only [h.clock, hnode.accessed]
  · simp only [h.clock, hnode.modified]

theorem bind (h : v.Alike R v') {dir dir' : Ino} (hdir : R dir dir') (hij : R i j) (name : Name) :
    (v.bind dir name i).Alike R (v'.bind dir' name j) := by
  have hentries : List.Forall₂ (EntryAlike R) (v.entries dir ++ [(name, i)])
      (v'.entries dir' ++ [(name, j)]) :=
    List.rel_append (h.entries hdir) (.cons ⟨rfl, hij⟩ .nil)
  -- the node may be the directory itself, so its link is counted behind the listing
  have hlisted := h.replaceBody hdir (.directory hentries)
  obtain ⟨hbody, hlinks, haccessed, hmodified⟩ := hlisted.node i j hij
  exact hlisted.modify hij ⟨hbody, congrArg (· + 1) hlinks, haccessed, hmodified⟩

theorem unbind (h : v.Alike R v') {dir dir' : Ino} (hdir : R dir dir') (hij : R i j)
    (name : Name) : (v.unbind dir name i).Alike R (v'.unbind dir' name j) := by
  have hentries : List.Forall₂ (EntryAlike R) ((v.entries dir).filter fun e => e.1 != name)
      ((v'.entries dir').filter fun e => e.1 != name) := by
    refine List.rel_filter (fun e e' he => ?_) (h.entries hdir)
    simp only [he.1]
  have hlisted := h.replaceBody hdir (.directory hentries)
  obtain ⟨hbody, hlinks, haccessed, hmodified⟩ := hlisted.node i j hij
  exact hlisted.modify hij ⟨hbody, congrArg (· - 1) hlinks, haccessed, hmodified⟩

theorem next (h : v.Alike R v') : R v.nodes.size v'.nodes.size := h.fresh 0

theorem push (h : v.Alike R v') {n n' : Node} (hn : n.Alike R n') :
    Volume.Alike R { v with nodes := v.nodes.push n } { v' with nodes := v'.nodes.push n' } := by
  refine ⟨h.unique, h.clock, fun k => ?_, fun a b hab => ?_⟩
  · rw [Array.size_push, Array.size_push, Nat.add_right_comm, Nat.add_right_comm _ 1]
    exact h.fresh (k + 1)
  · have hsame := h.eq_iff hab h.next
    rw [node_push, node_push]
    split
    case isTrue ha =>
      rw [if_pos (hsame.mp ha)]
      exact hn
    case isFalse ha =>
      rw [if_neg (mt hsame.mpr ha)]
      exact h.node a b hab

theorem create (h : v.Alike R v') {dir dir' : Ino} (hdir : R dir dir') (name : Name) {b b' : Body}
    (hb : b.Alike R b') : (v.create dir name b).2.Alike R (v'.create dir' name b').2 := by
  have hnode : Node.Alike R ⟨b, 0, v.clock, v.clock⟩ ⟨b', 0, v'.clock, v'.clock⟩ :=
    ⟨hb, rfl, h.clock, h.clock⟩
  exact (h.push hnode).bind hdir h.next name

end Volume.Alike

end Hostcall
