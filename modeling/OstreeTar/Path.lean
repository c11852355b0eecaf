import Mathlib.Data.List.Basic

/-!
# Unix paths as `std::path` sees them

Rust compares paths, and the `tar` crate writes them, through their components, so a
`Utf8PathBuf` is modelled by its component list.  `Utf8Path.new` parses a string the way
`Path::components` does on Unix; `join`, `strip_prefix`, `file_name` and `extension` are written
over components, and `render` spells a component list back out as `copy_path_into` of the `tar`
crate does.
-/

namespace OstreeTar

/-- A component of a Unix path (`std::path::Component`, without the Windows prefix). -/
inductive Component
  | rootDir
  | curDir
  | parentDir
  | normal (name : String)
  deriving DecidableEq, Repr

/-- A path, as the list of its components. -/
abbrev Utf8PathBuf := List Component

/-- The bytes of one component. -/
def Component.bytes : Component → List Char
  | .rootDir => ['/']
  | .curDir => ['.']
  | .parentDir => ['.', '.']
  | .normal name => name.toList

namespace Utf8Path

/-- The component one `/`-separated piece of a path body denotes: empty pieces and `.` vanish. -/
def pieceComponent (piece : List Char) : Option Component :=
  if piece = [] ∨ piece = ['.'] then none
  else if piece = ['.', '.'] then some .parentDir
  else some (.normal (String.mk piece))

/-- The components of a path body, the part after a leading root or current directory. -/
def bodyComponents (cs : List Char) : Utf8PathBuf :=
  (cs.splitOn '/').filterMap pieceComponent

/-- `Path::new(s).components()`: a leading `/` is the root, a leading `.` alone or before a `/`
is the current directory, and every other `.` and empty piece is dropped. -/
def new (s : String) : Utf8PathBuf :=
  match s.data with
  | '/' :: rest => .rootDir :: bodyComponents rest
  | '.' :: rest =>
    if rest = [] ∨ rest.head? = some '/' then .curDir :: bodyComponents rest
    else bodyComponents ('.' :: rest)
  | cs => bodyComponents cs

/-- `Path::join` (`PathBuf::push`): an absolute path replaces the base; otherwise its components
are appended, a leading `.` becoming an interior one that disappears. -/
def join (p q : Utf8PathBuf) : Utf8PathBuf :=
  match q with
  | .rootDir :: _ => q
  | .curDir :: rest => if p = [] then q else p ++ rest
  | _ => p ++ q

/-- `Path::strip_prefix`: the components left once those of `base` are matched, if they are. -/
def stripPrefix : Utf8PathBuf → Utf8PathBuf → Option Utf8PathBuf
  | p, [] => some p
  | [], _ :: _ => none
  | a :: p, b :: base => if a = b then stripPrefix p base else none

/-- `Path::file_name`: the last component, when it is a normal one. -/
def fileName (p : Utf8PathBuf) : Option String :=
  match p.getLast? with
  | some (.normal name) => some name
  | _ => none

/-- `Path::extension`: what follows the last `.` of the file name, unless that `.` begins it. -/
def extension (p : Utf8PathBuf) : Option String :=
  (fileName p).bind fun name =>
    match name.toList.reverse.span (· ≠ '.') with
    | (_, []) => none
    | (afterRev, _ :: beforeRev) => if beforeRev = [] then none else some (String.mk afterRev.reverse)

/-- `Path::ancestors` of a relative path: the path itself, then each parent, down to `""`. -/
def ancestors (p : Utf8PathBuf) : List Utf8PathBuf := p.inits.reverse

/-- The components written one after the other, a `/` between two of them but none after the
root: how the `tar` crate spells a path, and the text `format!` built each relative path of the
writer from. -/
def render : Utf8PathBuf → String
  | .rootDir :: rest => String.mk ('/' :: ['/'].intercalate (rest.map Component.bytes))
  | p => String.mk (['/'].intercalate (p.map Component.bytes))

end Utf8Path

/-! ## Parsing -/

namespace Utf8Path

/-- A name that is a single normal component: non-empty, without `/`, neither `.` nor `..`. -/
def IsPlain (name : String) : Prop :=
  name.data ≠ [] ∧ '/' ∉ name.data ∧ name.data ≠ ['.'] ∧ name.data ≠ ['.', '.']

instance (name : String) : Decidable (IsPlain name) := by unfold IsPlain; infer_instance

theorem pieceComponent_of_isPlain {name : String} (h : IsPlain name) :
    pieceComponent name.data = some (.normal name) := by
  obtain ⟨h0, -, h1, h2⟩ := h
  simp [pieceComponent, h0, h1, h2]

/-- A body made of plain pieces parses back to those names. -/
theorem bodyComponents_intercalate {names : List String} (h : ∀ n ∈ names, IsPlain n)
    (hne : names ≠ []) :
    bodyComponents (['/'].intercalate (names.map String.data)) = names.map .normal := by
  unfold bodyComponents
  rw [List.splitOn_intercalate _ _ (by simpa using fun n hn => (h n hn).2.1)
    (by simpa using hne)]
  induction names with
  | nil => rfl
  | cons n ns ih =>
    simp only [List.map_cons, List.filterMap_cons, pieceComponent_of_isPlain (h n (by simp))]
    cases ns with
    | nil => rfl
    | cons m ms => rw [ih (fun k hk => h k (by simp [hk])) (by simp)]

/-- A string whose first `/`-separated piece is neither empty nor `.` parses as a body. -/
theorem new_of_firstPiece {s : String}
    (h : (s.data.splitOn '/').head? ≠ some [] ∧ (s.data.splitOn '/').head? ≠ some ['.']) :
    Utf8Path.new s = bodyComponents s.data := by
  unfold new
  split
  · next rest hs => simp [hs, List.splitOn, List.splitOnP_cons] at h
  · next rest hs =>
    rw [if_neg (fun hr => ?_), hs]
    rcases hr with rfl | hr
    · simp [hs, List.splitOn, List.splitOnP_cons] at h
    · obtain ⟨r, rfl⟩ : ∃ r, rest = '/' :: r := by
        cases rest with
        | nil => simp at hr
        | cons c cs => simp only [List.head?_cons, Option.some.injEq] at hr; exact ⟨cs, hr ▸ rfl⟩
      simp [hs, List.splitOn, List.splitOnP_cons] at h
  · rfl

/-- A path of normal components is rendered as its names separated by `/`. -/
theorem render_map_normal (names : List String) :
    render (names.map .normal) = String.mk (['/'].intercalate (names.map String.data)) := by
  cases names <;> simp [render, Component.bytes, Function.comp_def]

/-- Parsing the rendering of plain names gives them back: the paths `format!` builds are the
component lists the writer passes. -/
theorem new_render_normal {names : List String} (h : ∀ n ∈ names, IsPlain n)
    (hne : names ≠ []) :
    Utf8Path.new (render (names.map .normal)) = names.map .normal := by
  obtain ⟨n, ns, rfl⟩ := List.exists_cons_of_ne_nil hne
  have hsplit : (['/'].intercalate ((n :: ns).map String.data)).splitOn '/' =
      (n :: ns).map String.data :=
    List.splitOn_intercalate _ _ (by simpa using fun k hk => (h k hk).2.1) (by simp)
  obtain ⟨hn0, -, hndot, -⟩ := h n (by simp)
  rw [render_map_normal, new_of_firstPiece (by rw [hsplit]; simp [hn0, hndot])]
  exact bodyComponents_intercalate h hne

private theorem intercalate_cons_cons {α : Type} (sep a b : List α) (l : List (List α)) :
    sep.intercalate (a :: b :: l) = a ++ sep ++ sep.intercalate (b :: l) := by
  simp [List.intercalate, List.intersperse_cons_cons]

/-- The rendering of plain names does not end in `/`. -/
theorem getLast?_render_map_normal {names : List String} (h : ∀ n ∈ names, IsPlain n) :
    (render (names.map .normal)).data.getLast? ≠ some '/' := by
  rw [render_map_normal]
  induction names with
  | nil => simp [List.intercalate]
  | cons n ns ih =>
    obtain ⟨hn0, hslash, -, -⟩ := h n (by simp)
    cases ns with
    | nil =>
      intro hl
      exact hslash (List.mem_of_getLast?_eq_some (by simpa [List.intercalate] using hl))
    | cons m ms =>
      obtain ⟨hm0, -, -, -⟩ := h m (by simp)
      have hne : ['/'].intercalate ((m :: ms).map String.data) ≠ [] := by
        rw [List.map_cons]; cases ms <;> simp [List.intercalate, intercalate_cons_cons, hm0]
      obtain ⟨a, ha⟩ := Option.ne_none_iff_exists'.mp (mt List.getLast?_eq_none_iff.mp hne)
      have ih' := ih fun k hk => h k (List.mem_cons_of_mem _ hk)
      simp only [List.map_cons] at ha ih' ⊢
      rw [intercalate_cons_cons, List.getLast?_append, ha]
      simpa [ha] using ih'

/-- A character of the rendering of names is a `/` or a character of one of the names. -/
theorem mem_render_map_normal {names : List String} {c : Char}
    (h : c ∈ (render (names.map .normal)).data) : c = '/' ∨ ∃ n ∈ names, c ∈ n.data := by
  rw [render_map_normal] at h
  induction names with
  | nil => simp [List.intercalate] at h
  | cons n ns ih =>
    cases ns with
    | nil => exact .inr ⟨n, by simp, by simpa [List.intercalate] using h⟩
    | cons m ms =>
      simp only [List.map_cons, intercalate_cons_cons, List.mem_append,
        List.mem_singleton] at h
      rcases h with (h | h) | h
      · exact .inr ⟨n, by simp, h⟩
      · exact .inl h
      · rcases ih (by simpa using h) with h' | ⟨k, hk, hc⟩
        · exact .inl h'
        · exact .inr ⟨k, List.mem_cons_of_mem _ hk, hc⟩

end Utf8Path

end OstreeTar
