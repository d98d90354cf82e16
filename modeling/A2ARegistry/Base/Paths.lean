import A2ARegistry.Base.Text

namespace A2ARegistry.Base

/-- What a POSIX path starts with. Two slashes, and no third, are an anchor of their own. -/
inductive Anchor
  | relative | root | double
deriving DecidableEq, Repr

def Anchor.text : Anchor → String
  | .relative => ""
  | .root => "/"
  | .double => "//"

def Anchor.of : List Char → Anchor
  | '/' :: '/' :: '/' :: _ => .root
  | '/' :: '/' :: _ => .double
  | '/' :: _ => .root
  | _ => .relative

/-- What a path keeps between two slashes. -/
def IsPart (part : String) : Prop := part ≠ "" ∧ part ≠ "." ∧ '/' ∉ part.toList

/-- A `pathlib.Path`. -/
@[ext] structure Path where
  anchor : Anchor
  parts : List String
  normal : ∀ part ∈ parts, IsPart part
deriving DecidableEq

namespace Path

/-- `Path(s)`. -/
def parse (s : String) : Path where
  anchor := Anchor.of s.toList
  parts := (splitAt s '/').filter (fun part => part != "" && part != ".")
  normal := by
    intro part hpart
    obtain ⟨hsplit, hkept⟩ := List.mem_filter.mp hpart
    obtain ⟨cs, hcs, rfl⟩ := List.mem_map.mp hsplit
    have hletters := splitOnP_letters hcs
    refine ⟨by simp_all, by simp_all, fun hslash => ?_⟩
    simpa using hletters '/' (by simpa using hslash)

/-- `str(path)`. -/
def str (p : Path) : String :=
  if p.anchor = .relative ∧ p.parts = [] then "." else p.anchor.text ++ joinBy "/" p.parts

/-- `a / b`: a path with an anchor stands for itself. -/
def join (a b : Path) : Path :=
  if b.anchor = .relative then
    ⟨a.anchor, a.parts ++ b.parts, fun part h => (List.mem_append.mp h).elim (a.normal part) (b.normal part)⟩
  else b

/-- The path of the first parts. -/
def upTo (p : Path) (n : Nat) : Path :=
  ⟨p.anchor, p.parts.take n, fun part h => p.normal part (List.mem_of_mem_take h)⟩

/-- `path.parent`. -/
def parent (p : Path) : Path := p.upTo (p.parts.length - 1)

/-- `path.parents`, the nearest first. -/
def parents (p : Path) : List Path := (List.range p.parts.length).reverse.map p.upTo

/-- `path` lies below `root`, and no part of it leads out again. -/
def Encloses (root path : Path) : Prop :=
  path.anchor = root.anchor ∧ ∃ rest, rest ≠ [] ∧ ".." ∉ rest ∧ path.parts = root.parts ++ rest

theorem Encloses.join {root path name : Path} (h : root.Encloses path) (hname : name.anchor = .relative)
    (hup : ".." ∉ name.parts) : root.Encloses (path.join name) := by
  obtain ⟨hanchor, rest, hrest, hdots, hparts⟩ := h
  rw [Path.join, if_pos hname]
  refine ⟨hanchor, rest ++ name.parts, ?_, ?_, ?_⟩
  · simp [hrest]
  · simp [hdots, hup]
  · simp [hparts]

theorem encloses_join {root name : Path} (hname : name.anchor = .relative) (hne : name.parts ≠ [])
    (hup : ".." ∉ name.parts) : root.Encloses (root.join name) := by
  rw [Path.join, if_pos hname]
  exact ⟨rfl, name.parts, hne, hup, rfl⟩

/-- The characters of a text that is joined from parts do not start with a slash. -/
theorem joinBy_head {parts : List String} (h : ∀ part ∈ parts, IsPart part) :
    ∀ cs, (joinBy "/" parts).toList ≠ '/' :: cs := by
  intro cs hcs
  cases parts with
  | nil => cases hcs
  | cons part parts =>
    obtain ⟨hne, _, hslash⟩ := h part (List.mem_cons_self ..)
    cases hpart : part.toList with
    | nil => exact hne (String.toList_eq_nil_iff.mp hpart)
    | cons c letters =>
      have hc : c = '/' := by
        cases parts with
        | nil =>
          rw [joinBy_singleton, hpart] at hcs
          exact (List.cons.inj hcs).1
        | cons next parts =>
          rw [joinBy_cons "/" part (List.cons_ne_nil next parts)] at hcs
          simp only [String.toList_append, hpart, List.append_assoc, List.cons_append] at hcs
          exact (List.cons.inj hcs).1
      rw [hpart, hc] at hslash
      exact hslash (List.mem_cons_self ..)

theorem anchor_relative {cs : List Char} (h : ∀ rest, cs ≠ '/' :: rest) : Anchor.of cs = .relative := by
  unfold Anchor.of
  split
  · exact absurd rfl (h _)
  · exact absurd rfl (h _)
  · exact absurd rfl (h _)
  · rfl

theorem anchor_text (anchor : Anchor) {cs : List Char} (h : ∀ rest, cs ≠ '/' :: rest) :
    Anchor.of (anchor.text.toList ++ cs) = anchor := by
  cases anchor with
  | relative => exact anchor_relative h
  | root =>
    cases cs with
    | nil => rfl
    | cons c cs =>
      have hc : c ≠ '/' := fun he => h cs (by rw [he])
      simp [Anchor.text, Anchor.of, hc]
  | double =>
    cases cs with
    | nil => rfl
    | cons c cs =>
      have hc : c ≠ '/' := fun he => h cs (by rw [he])
      simp [Anchor.text, Anchor.of]

/-- The parts of a text are the parts that are joined in it. -/
theorem split_joined {parts : List String} (h : ∀ part ∈ parts, IsPart part) :
    (splitAt (joinBy "/" parts) '/').filter (fun part => part != "" && part != ".") = parts := by
  cases hparts : parts with
  | nil => rfl
  | cons part rest =>
    have hslash : ∀ l ∈ parts.map String.toList, '/' ∉ l := by
      intro l hl
      obtain ⟨p, hp, rfl⟩ := List.mem_map.mp hl
      exact (h p hp).2.2
    have hsplit : splitAt (joinBy "/" parts) '/' = parts := by
      have hjoined := List.splitOn_intercalate '/' hslash (by simp [hparts])
      simp only [splitAt, joinBy, String.toList_ofList]
      rw [show "/".toList = ['/'] from rfl, hjoined]
      simp
    rw [← hparts, hsplit, List.filter_eq_self]
    intro p hp
    obtain ⟨hne, hdot, _⟩ := h p hp
    simp [hne, hdot]

theorem split_anchor (anchor : Anchor) (s : String) :
    (splitAt (anchor.text ++ s) '/').filter (fun part => part != "" && part != ".") =
      (splitAt s '/').filter (fun part => part != "" && part != ".") := by
  have hslash : ∀ cs : List Char, ('/' :: cs).splitOn '/' = [] :: cs.splitOn '/' :=
    fun cs => by simp [List.splitOn_cons_eq_if_modifyHead]
  cases anchor with
  | relative => simp [Anchor.text]
  | root => simp [splitAt, Anchor.text, hslash]
  | double => simp [splitAt, Anchor.text, hslash]

/-- The text of a path reads as that path. -/
@[simp] theorem parse_str (p : Path) : parse p.str = p := by
  rw [str]
  split
  · rename_i hempty
    exact Path.ext hempty.1.symm hempty.2.symm
  · refine Path.ext ?_ ?_
    · rw [parse, String.toList_append, anchor_text p.anchor (joinBy_head p.normal)]
    · exact (split_anchor p.anchor (joinBy "/" p.parts)).trans (split_joined p.normal)

/-- A text without slashes is the name of a file, unless it is a dot. -/
theorem parse_name {s : String} (h : IsPart s) : (parse s).anchor = .relative ∧ (parse s).parts = [s] := by
  obtain ⟨hne, hdot, hslash⟩ := h
  constructor
  · refine anchor_relative fun rest hrest => ?_
    rw [hrest] at hslash
    exact hslash (List.mem_cons_self ..)
  · have hsplit : splitAt s '/' = [s] := by
      simp [splitAt, List.splitOn_eq_singleton hslash]
    simp [parse, hsplit, hne, hdot]

end Path

end A2ARegistry.Base
