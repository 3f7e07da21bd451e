import NavTree.Code.Graph
import NavTree.Proofs.Number.Text
import NavTree.Proofs.Tree.Canonical

/-! # Markup of labels

Labels are text with markup. A label is made of parts: the markup and the words that it is written
with, and the texts of the tree it describes. The markup is always balanced, and it is all the
markup that the label shows exactly when no text of the tree has a character of markup, since texts
stand in labels as they are.
-/
namespace NavTree

/-- The markup that labels are made with. -/
inductive Mark where
  | openBold | closeBold | openItalic | closeItalic | lineBreak | space
deriving DecidableEq, Repr

def Mark.text : Mark → String
  | openBold => "<b>"
  | closeBold => "</b>"
  | openItalic => "<i>"
  | closeItalic => "</i>"
  | lineBreak => NavTree.lineBreak
  | space => "&nbsp;"

/-- Opening and closing marks come in pairs that do not cross. -/
inductive Balanced : List Mark → Prop
  | nil : Balanced []
  | lineBreak {ms : List Mark} : Balanced ms → Balanced (.lineBreak :: ms)
  | space {ms : List Mark} : Balanced ms → Balanced (.space :: ms)
  | bold {inner ms : List Mark} : Balanced inner → Balanced ms →
      Balanced (.openBold :: (inner ++ .closeBold :: ms))
  | italic {inner ms : List Mark} : Balanced inner → Balanced ms →
      Balanced (.openItalic :: (inner ++ .closeItalic :: ms))

theorem Balanced.append {ms ns : List Mark} (hm : Balanced ms) (hn : Balanced ns) :
    Balanced (ms ++ ns) := by
  induction hm with
  | nil => exact hn
  | lineBreak _ ih => exact .lineBreak ih
  | space _ ih => exact .space ih
  | bold hinner _ _ ih =>
    rw [List.cons_append, List.append_assoc, List.cons_append]
    exact .bold hinner ih
  | italic hinner _ _ ih =>
    rw [List.cons_append, List.append_assoc, List.cons_append]
    exact .italic hinner ih

/-- The characters that start or end a mark. -/
def isMarkup (c : Char) : Bool := c == '<' || c == '>' || c == '&'

/-- Text that holds no markup. -/
def IsPlain (s : String) : Prop := ∀ c ∈ s.toList, isMarkup c = false

instance (s : String) : Decidable (IsPlain s) :=
  decidable_of_iff (s.toList.all (!isMarkup ·) = true) (by simp [IsPlain])

/-- The marks are all the markup there is among the characters. -/
inductive Shows : List Char → List Mark → Prop
  | nil : Shows [] []
  | plain {c : Char} {cs : List Char} {ms : List Mark} : isMarkup c = false → Shows cs ms →
      Shows (c :: cs) ms
  | mark {m : Mark} {cs : List Char} {ms : List Mark} : Shows cs ms →
      Shows (m.text.toList ++ cs) (m :: ms)

/-- How many characters of markup a text has. -/
def markupCount (s : String) : Nat := s.toList.countP isMarkup

theorem markupCount_append (s t : String) :
    markupCount (s ++ t) = markupCount s + markupCount t := by
  rw [markupCount, String.toList_append, List.countP_append]
  rfl

theorem markupCount_eq_zero {s : String} : markupCount s = 0 ↔ IsPlain s := by
  rw [markupCount, List.countP_eq_zero]
  simp [IsPlain]

namespace Shows

variable {cs : List Char} {ms : List Mark}

/-- Characters of markup stand in marks only. -/
theorem countP_eq (h : Shows cs ms) :
    cs.countP isMarkup = markupCount (String.join (ms.map Mark.text)) := by
  induction h with
  | nil => rfl
  | plain hc _ ih => rw [List.countP_cons_of_neg (by simp [hc]), ih]
  | mark _ ih =>
    rw [List.countP_append, ih, List.map_cons, String.join_cons, markupCount_append]
    rfl

/-- Every mark closes what it opens. -/
theorem count_angles (h : Shows cs ms) : cs.count '<' = cs.count '>' := by
  induction h with
  | nil => rfl
  | @plain c cs ms hc _ ih =>
    have hopen : c ≠ '<' := by rintro rfl; exact absurd hc (by decide)
    have hclose : c ≠ '>' := by rintro rfl; exact absurd hc (by decide)
    rw [List.count_cons_of_ne hopen, List.count_cons_of_ne hclose, ih]
  | @mark m cs ms _ ih =>
    have hmark : m.text.toList.count '<' = m.text.toList.count '>' := by cases m <;> decide
    rw [List.count_append, List.count_append, ih, hmark]

theorem plain_append {front : List Char} (hfront : ∀ c ∈ front, isMarkup c = false)
    (h : Shows cs ms) : Shows (front ++ cs) ms := by
  induction front with
  | nil => exact h
  | cons c front ih =>
    obtain ⟨hc, hfront⟩ := List.forall_mem_cons.mp hfront
    exact .plain hc (ih hfront)

end Shows

inductive LabelPart where
  | mark (m : Mark)
  /-- What is written into labels besides markup. -/
  | word (text : String) (plain : IsPlain text)
  /-- A name, a path, a key or a string of the tree. -/
  | given (text : String)

namespace LabelPart

def text : LabelPart → String
  | mark m => m.text
  | word text _ => text
  | given text => text

def mark? : LabelPart → Option Mark
  | mark m => some m
  | _ => none

def given? : LabelPart → Option String
  | given text => some text
  | _ => none

def textOf (ps : List LabelPart) : String := String.join (ps.map text)

def marks (ps : List LabelPart) : List Mark := ps.filterMap mark?

def givens (ps : List LabelPart) : List String := ps.filterMap given?

theorem markupCount_textOf (ps : List LabelPart) : markupCount (textOf ps) =
    markupCount (String.join ((marks ps).map Mark.text)) +
      markupCount (String.join (givens ps)) := by
  induction ps with
  | nil => rfl
  | cons p ps ih =>
    rw [textOf, List.map_cons, String.join_cons, markupCount_append, ← textOf, ih]
    cases p with
    | mark m =>
      simp only [marks, givens, text, mark?, given?, List.filterMap_cons, List.map_cons,
        String.join_cons, markupCount_append]
      omega
    | word t ht =>
      simp only [marks, givens, text, mark?, given?, List.filterMap_cons,
        markupCount_eq_zero.mpr ht]
      omega
    | given t =>
      simp only [marks, givens, text, mark?, given?, List.filterMap_cons, String.join_cons,
        markupCount_append]
      omega

theorem shows_textOf {ps : List LabelPart} (h : ∀ s ∈ givens ps, IsPlain s) :
    Shows (textOf ps).toList (marks ps) := by
  induction ps with
  | nil => exact .nil
  | cons p ps ih =>
    rw [textOf, List.map_cons, String.join_cons, String.toList_append, ← textOf]
    cases p with
    | mark m => exact .mark (ih h)
    | word t ht => exact .plain_append ht (ih h)
    | given t =>
      obtain ⟨ht, hrest⟩ := List.forall_mem_cons.mp h
      exact .plain_append ht (ih hrest)

/-- Parts show their own marks and no others exactly if the texts given are plain. -/
theorem shows_textOf_iff (ps : List LabelPart) :
    Shows (textOf ps).toList (marks ps) ↔ ∀ s ∈ givens ps, IsPlain s := by
  constructor
  · intro h s hs
    -- The marks account for all characters of markup, so the texts given have none.
    have hcount : markupCount (textOf ps) = markupCount (String.join ((marks ps).map Mark.text)) :=
      h.countP_eq
    rw [markupCount_textOf] at hcount
    have hplain : IsPlain (String.join (givens ps)) := markupCount_eq_zero.mp (by omega)
    intro c hc
    refine hplain c ?_
    rw [String.toList_join]
    exact List.mem_flatMap_of_mem hs hc
  · exact shows_textOf

/-- Lines one below the other. -/
def lines (ls : List (List LabelPart)) : List LabelPart := [mark .lineBreak].intercalate ls

theorem textOf_nil : textOf [] = "" := String.join_nil

theorem textOf_cons (p : LabelPart) (ps : List LabelPart) :
    textOf (p :: ps) = p.text ++ textOf ps := String.join_cons

theorem textOf_append (ps qs : List LabelPart) : textOf (ps ++ qs) = textOf ps ++ textOf qs := by
  rw [textOf, List.map_append, String.join_append]
  rfl

theorem textOf_lines (ls : List (List LabelPart)) :
    textOf (lines ls) = lineBreak.intercalate (ls.map textOf) := by
  induction ls with
  | nil => rfl
  | cons l ls ih =>
    cases ls with
    | nil => rw [lines, List.intercalate_singleton]; exact String.intercalate_singleton.symm
    | cons next rest =>
      rw [lines, List.intercalate_cons_cons, ← lines, textOf_append, textOf_append, ih]
      exact String.intercalate_cons_cons.symm

theorem givens_append (ps qs : List LabelPart) : givens (ps ++ qs) = givens ps ++ givens qs :=
  List.filterMap_append

theorem givens_lines (ls : List (List LabelPart)) : givens (lines ls) = ls.flatMap givens := by
  induction ls with
  | nil => rfl
  | cons l ls ih =>
    cases ls with
    | nil => rw [lines, List.intercalate_singleton]; simp
    | cons next rest =>
      rw [lines, List.intercalate_cons_cons, ← lines, givens_append, givens_append, ih]
      simp [givens, given?]

theorem balanced_append {ps qs : List LabelPart} (hp : Balanced (marks ps))
    (hq : Balanced (marks qs)) : Balanced (marks (ps ++ qs)) := by
  rw [marks, List.filterMap_append]
  exact hp.append hq

theorem balanced_lines {ls : List (List LabelPart)} (h : ∀ l ∈ ls, Balanced (marks l)) :
    Balanced (marks (lines ls)) := by
  induction ls with
  | nil => exact .nil
  | cons l ls ih =>
    obtain ⟨hl, hls⟩ := List.forall_mem_cons.mp h
    cases ls with
    | nil => rwa [lines, List.intercalate_singleton]
    | cons next rest =>
      rw [lines, List.intercalate_cons_cons, ← lines]
      exact balanced_append (balanced_append hl (.lineBreak .nil)) (ih hls)

/-- The indentation of a line. -/
def indent : Nat → List LabelPart
  | 0 => []
  | depth + 1 => mark .space :: mark .space :: indent depth

theorem textOf_indent (depth : Nat) : textOf (indent depth) = NavTree.indent depth := by
  induction depth with
  | zero => rfl
  | succ depth ih =>
    rw [indent, textOf, List.map_cons, List.map_cons, String.join_cons, String.join_cons, ← textOf,
      ih, NavTree.indent, ← String.append_assoc]
    rfl

theorem givens_indent (depth : Nat) : givens (indent depth) = [] := by
  induction depth with
  | zero => rfl
  | succ depth ih => exact ih

theorem balanced_indent (depth : Nat) : Balanced (marks (indent depth)) := by
  induction depth with
  | zero => exact .nil
  | succ depth ih => exact .space (.space ih)

/-- A line that names what it holds. -/
def line (depth : Nat) (name : LabelPart) (content : List LabelPart) : List LabelPart :=
  indent depth ++ name :: word ": " (by decide) :: content

theorem textOf_line (depth : Nat) (name : LabelPart) (content : List LabelPart) :
    textOf (line depth name content) =
      NavTree.indent depth ++ name.text ++ ": " ++ textOf content := by
  rw [line, textOf_append, textOf_indent, textOf_cons, textOf_cons, String.append_assoc,
    String.append_assoc]
  rfl

theorem givens_line (depth : Nat) (name : LabelPart) (content : List LabelPart) :
    givens (line depth name content) = name.given?.toList ++ givens content := by
  rw [line, givens_append, givens_indent, List.nil_append]
  cases name <;> rfl

theorem balanced_line {depth : Nat} {name : LabelPart} {content : List LabelPart}
    (hname : name.mark? = none) (hcontent : Balanced (marks content)) :
    Balanced (marks (line depth name content)) := by
  refine balanced_append (balanced_indent depth) ?_
  rw [marks, List.filterMap_cons_none hname]
  exact hcontent

/-- A line that names the lines below it. -/
def heading (depth : Nat) (name : LabelPart) (below : List (List LabelPart)) : List LabelPart :=
  indent depth ++ name :: word ":" (by decide) :: mark .lineBreak :: lines below

theorem textOf_heading (depth : Nat) (name : LabelPart) (below : List (List LabelPart)) :
    textOf (heading depth name below) = NavTree.indent depth ++ name.text ++ ":" ++ lineBreak ++
      lineBreak.intercalate (below.map textOf) := by
  rw [heading, textOf_append, textOf_indent, textOf_cons, textOf_cons, textOf_cons, textOf_lines,
    String.append_assoc, String.append_assoc, String.append_assoc]
  rfl

theorem givens_heading (depth : Nat) (name : LabelPart) (below : List (List LabelPart)) :
    givens (heading depth name below) = name.given?.toList ++ below.flatMap givens := by
  rw [heading, givens_append, givens_indent, List.nil_append, ← givens_lines]
  cases name <;> rfl

theorem balanced_heading {depth : Nat} {name : LabelPart} {below : List (List LabelPart)}
    (hname : name.mark? = none) (hbelow : ∀ l ∈ below, Balanced (marks l)) :
    Balanced (marks (heading depth name below)) := by
  refine balanced_append (balanced_indent depth) ?_
  rw [marks, List.filterMap_cons_none hname]
  exact .lineBreak (balanced_lines hbelow)

end LabelPart

theorem JsonNumber.text_isPlain (n : JsonNumber) : IsPlain n.text := by
  intro c hc
  have hnumber : isNumberChar c = true := n.text_numeric c hc
  rw [isMarkup, Bool.or_eq_false_iff, Bool.or_eq_false_iff]
  refine ⟨⟨?_, ?_⟩, ?_⟩
  all_goals
    refine beq_eq_false_iff_ne.mpr ?_
    rintro rfl
    exact absurd hnumber (by decide)

theorem BoxKind.label_isPlain (k : BoxKind) : IsPlain k.label := by
  cases k <;> decide

namespace Value

open LabelPart (textOf marks givens line heading)

mutual

/-- The parts of a label entry under its name. -/
def labelParts? (depth : Nat) (name : LabelPart) : Value → Option (List LabelPart)
  | .expression _ => some (line depth name
      [.mark .openItalic, .word "Expression" (by decide), .mark .closeItalic])
  | .record entries => some (heading depth name (labelPartsOf (depth + 1) entries))
  | .string s => some (line depth name [.given s])
  | .number n => some (line depth name [.word n.text n.text_isPlain])
  | .boolean b => some (line depth name
      [.word (if b then "true" else "false") (by cases b <;> decide)])
  | .code _ => none
  | .null => none
  | .list _ => none

def labelPartsOf (depth : Nat) : List (String × Value) → List (List LabelPart)
  | [] => []
  | (key, v) :: rest =>
    (labelParts? depth (.given key) v).toList ++ labelPartsOf depth rest

end

mutual

theorem labelLine?_eq (depth : Nat) (name : LabelPart) : ∀ v : Value,
    labelLine? depth name.text v = (labelParts? depth name v).map textOf
  | .expression _ | .string _ | .number _ | .boolean _ => by
    rw [labelLine?, labelParts?, Option.map_some, LabelPart.textOf_line]
    simp [textOf, LabelPart.text, Mark.text, String.append_assoc]
  | .record entries => by
    rw [labelLine?, labelParts?, Option.map_some, LabelPart.textOf_heading, labelLines_eq]
  | .code _ | .null | .list _ => by
    rw [labelLine?, labelParts?]
    rfl

theorem labelLines_eq (depth : Nat) : ∀ entries : List (String × Value),
    labelLines depth entries = (labelPartsOf depth entries).map textOf
  | [] => by
    rw [labelLines, labelPartsOf]
    rfl
  | (key, v) :: rest => by
    rw [labelLines, labelPartsOf, List.map_append, ← labelLines_eq depth rest]
    have hline : labelLine? depth key v = (labelParts? depth (.given key) v).map textOf :=
      labelLine?_eq depth (.given key) v
    rw [hline, Option.toList_map]

end

theorem labelLines_append (depth : Nat) (es fs : List (String × Value)) :
    labelLines depth (es ++ fs) = labelLines depth es ++ labelLines depth fs := by
  induction es with
  | nil => rfl
  | cons e rest ih => rw [List.cons_append, labelLines, labelLines, ih, List.append_assoc]

mutual

theorem labelParts?_balanced (depth : Nat) {name : LabelPart} (hname : name.mark? = none) :
    ∀ (v : Value), ∀ l ∈ labelParts? depth name v, Balanced (marks l)
  | .expression _, l, hl => by
    rw [labelParts?] at hl
    cases hl
    exact LabelPart.balanced_line hname (.italic .nil .nil)
  | .string _, l, hl | .number _, l, hl | .boolean _, l, hl => by
    rw [labelParts?] at hl
    cases hl
    exact LabelPart.balanced_line hname .nil
  | .record entries, l, hl => by
    rw [labelParts?] at hl
    cases hl
    exact LabelPart.balanced_heading hname (labelPartsOf_balanced (depth + 1) entries)
  | .code _, l, hl | .null, l, hl | .list _, l, hl => by
    rw [labelParts?] at hl
    cases hl

theorem labelPartsOf_balanced (depth : Nat) :
    ∀ (entries : List (String × Value)), ∀ l ∈ labelPartsOf depth entries, Balanced (marks l)
  | [], l, hl => by
    rw [labelPartsOf] at hl
    cases hl
  | (key, v) :: rest, l, hl => by
    rw [labelPartsOf, List.mem_append, Option.mem_toList] at hl
    rcases hl with hl | hl
    · exact labelParts?_balanced depth rfl v l hl
    · exact labelPartsOf_balanced depth rest l hl

end

mutual

/-- The key of an entry and the strings and keys in its value, where a label shows them. -/
def shownTexts (key : String) : Value → List String
  | .string s => [key, s]
  | .record entries => key :: shownTextsOf entries
  | .expression _ | .number _ | .boolean _ => [key]
  | .code _ | .null | .list _ => []

def shownTextsOf : List (String × Value) → List String
  | [] => []
  | (key, v) :: rest => shownTexts key v ++ shownTextsOf rest

end

mutual

theorem givens_labelParts? (depth : Nat) (key : String) : ∀ v : Value,
    (labelParts? depth (.given key) v).toList.flatMap givens = shownTexts key v
  | .expression _ | .string _ | .number _ | .boolean _ => by
    rw [labelParts?, shownTexts, Option.toList_some, List.flatMap_singleton,
      LabelPart.givens_line]
    rfl
  | .record entries => by
    rw [labelParts?, shownTexts, Option.toList_some, List.flatMap_singleton,
      LabelPart.givens_heading, givens_labelPartsOf]
    rfl
  | .code _ | .null | .list _ => by
    rw [labelParts?, shownTexts]
    rfl

theorem givens_labelPartsOf (depth : Nat) : ∀ entries : List (String × Value),
    (labelPartsOf depth entries).flatMap givens = shownTextsOf entries
  | [] => by
    rw [labelPartsOf, shownTextsOf]
    rfl
  | (key, v) :: rest => by
    rw [labelPartsOf, shownTextsOf, List.flatMap_append, givens_labelParts?, givens_labelPartsOf]

end

end Value

namespace Box

open LabelPart (textOf marks givens lines line heading)

/-- The lines of a label: the name, the path and the props. -/
def labelParts (b : Box) : List (List LabelPart) :=
  line 0 (.word b.kind.label b.kind.label_isPlain)
      [.mark .openBold, .given b.name, .mark .closeBold] ::
    ((b.path.map fun p => line 0 (.word "Path" (by decide)) [.given p]).toList ++
      (b.props.map fun r =>
        heading 0 (.word "Props" (by decide)) (Value.labelPartsOf 1 r.entries)).toList)

/-- The name, the path, and the keys and strings of the props as far as they are shown. -/
def texts (b : Box) : List String :=
  b.name :: (b.path.toList ++ (b.props.map fun r => Value.shownTextsOf r.entries).getD [])

/-- The marks of a label, all of them the writer's own. -/
def marks (b : Box) : List Mark := LabelPart.marks (lines b.labelParts)

theorem labelLines_entries (b : Box) :
    Value.labelLines 0 b.entries = b.labelParts.map textOf := by
  have hname : Value.labelLines 0 [(b.kind.label, .string ("<b>" ++ b.name ++ "</b>"))] =
      [textOf (line 0 (.word b.kind.label b.kind.label_isPlain)
        [.mark .openBold, .given b.name, .mark .closeBold])] := by
    simp [Value.labelLines, Value.labelLine?, LabelPart.textOf_line, LabelPart.textOf_cons,
      LabelPart.textOf_nil, LabelPart.text, Mark.text, String.append_assoc]
  have hpath : Value.labelLines 0 (b.path.map fun p => ("Path", Value.string p)).toList =
      (b.path.map fun p => line 0 (.word "Path" (by decide)) [.given p]).toList.map textOf := by
    cases b.path with
    | none => rfl
    | some p =>
      simp [Value.labelLines, Value.labelLine?, LabelPart.textOf_line, LabelPart.textOf_cons,
        LabelPart.textOf_nil, LabelPart.text]
  have hprops : Value.labelLines 0 (b.props.map fun r => ("Props", Value.record r.entries)).toList =
      (b.props.map fun r => heading 0 (.word "Props" (by decide))
        (Value.labelPartsOf 1 r.entries)).toList.map textOf := by
    cases b.props with
    | none => rfl
    | some r =>
      rw [Option.map_some, Option.map_some, Option.toList_some, Option.toList_some,
        Value.labelLines, Value.labelLine?, Value.labelLines_eq]
      simp [Value.labelLines, LabelPart.textOf_heading, LabelPart.text]
  rw [entries, Value.labelLines_append, Value.labelLines_append, hname, hpath, hprops, labelParts,
    List.map_cons, List.map_append, List.append_assoc]
  rfl

theorem label_eq (b : Box) : b.label = textOf (lines b.labelParts) := by
  rw [LabelPart.textOf_lines, label, labelLines_entries]

theorem givens_labelParts (b : Box) : givens (lines b.labelParts) = b.texts := by
  obtain ⟨kind, name, parent, path, props⟩ := b
  have hname : givens [.mark .openBold, .given name, .mark .closeBold] = [name] := rfl
  have hpath : ∀ p, givens [.given p] = [p] := fun _ => rfl
  rw [LabelPart.givens_lines]
  cases path <;> cases props <;>
    simp [texts, labelParts, LabelPart.givens_line, LabelPart.givens_heading,
      Value.givens_labelPartsOf, LabelPart.given?, hname, hpath]

theorem balanced_marks (b : Box) : Balanced b.marks := by
  refine LabelPart.balanced_lines ?_
  intro l hl
  rw [labelParts, List.mem_cons, List.mem_append, Option.mem_toList, Option.mem_toList] at hl
  rcases hl with rfl | hl | hl
  · exact LabelPart.balanced_line rfl (.bold .nil .nil)
  · obtain ⟨p, -, rfl⟩ := Option.map_eq_some_iff.mp hl
    exact LabelPart.balanced_line rfl .nil
  · obtain ⟨r, -, rfl⟩ := Option.map_eq_some_iff.mp hl
    exact LabelPart.balanced_heading rfl (Value.labelPartsOf_balanced 1 r.entries)

/-- The markup of a label is balanced, and it is all that the label shows exactly if the texts of
the tree in it are plain. -/
theorem label_shows_iff (b : Box) : b.label = textOf (lines b.labelParts) ∧ Balanced b.marks ∧
    (Shows b.label.toList b.marks ↔ ∀ s ∈ b.texts, IsPlain s) := by
  refine ⟨b.label_eq, b.balanced_marks, ?_⟩
  rw [b.label_eq, ← b.givens_labelParts]
  exact LabelPart.shows_textOf_iff _

end Box

namespace Plain

/-- A screen with a string that has the mark of a comparison. -/
def comparingJson : Json :=
  treeJson [navigatorJson "App" false [.object [("_tag", .string "Screen"),
    ("name", .string "Feed"), ("props", .object [("title", .string "a < b")])]]]

def comparingHead : NavigatorHead := head "App" false none

def comparingFeed : Screen :=
  { screen "Feed" comparingHead.trail with props := some ⟨[("title", .string "a < b")]⟩ }

def comparingTree : Tree := tree [⟨comparingHead, [.screen comparingFeed]⟩]

/-- The string opens a mark that nothing closes, so the label is not text with markup at all. -/
theorem comparing_label_torn :
    Tree.ofJson comparingJson = .ok comparingTree ∧
    boxes comparingTree.navigators = [comparingHead.box, comparingFeed.box] ∧
    comparingFeed.box.label = "Screen: <b>Feed</b><br align=\"left\" />Path: src/App/Feed" ++
      "<br align=\"left\" />Props:<br align=\"left\" />&nbsp;&nbsp;title: a < b" ∧
    ∀ ms, ¬ Shows comparingFeed.box.label.toList ms := by
  refine ⟨rfl, rfl, by decide +kernel, ?_⟩
  intro ms h
  exact absurd h.count_angles (by decide +kernel)

end Plain

end NavTree
