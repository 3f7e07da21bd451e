import NavTree.Project.Run
import NavTree.Proofs.Files.Beside
import NavTree.Proofs.Result
import NavTree.Proofs.Task.Always

/-! # What a compilation turns to

The paths that compiling a source reads and writes are known beforehand: the source, the generated
files in its directory, their temporaries and the image of the graph. Whatever is replied, there is
no operation on any other path.
-/
namespace NavTree

def artifactNames : List String := ["navigation.gen.tsx", "routes.gen.ts", "navigation.gen.dot"]

def graphName : String := "navigation.gen.dot"

/-- The files generated for a source. -/
def targetPaths (source : String) : List String :=
  artifactNames.map (Path.join (Path.outputDirectory source))

/-- The files generated for a source and the temporaries they are staged in. -/
def producedPaths (source : String) : List String :=
  targetPaths source ++ (targetPaths source).map temporaryPath

def graphPath (source : String) : String := Path.join (Path.outputDirectory source) graphName

def imagePath (source : String) : String := Path.join (Path.outputDirectory source) imageName

theorem isName_of_mem_artifactNames {n : String} (h : n ∈ artifactNames) : Path.IsName n := by
  simp only [artifactNames, List.mem_cons, List.not_mem_nil, or_false] at h
  rcases h with rfl | rfl | rfl <;> exact ⟨by decide, by decide, by decide, by decide⟩

theorem exists_of_mem_targetPaths {source p : String} (h : p ∈ targetPaths source) :
    ∃ n ∈ artifactNames, p = Path.join (Path.outputDirectory source) n := by
  obtain ⟨n, hn, rfl⟩ := List.mem_map.mp h
  exact ⟨n, hn, rfl⟩

/-- A produced path is a name in the directory of its source. -/
theorem exists_of_mem_producedPaths {source p : String} (h : p ∈ producedPaths source) :
    ∃ n, Path.IsName n ∧ p = Path.join (Path.outputDirectory source) n := by
  rcases List.mem_append.mp h with h | h
  · obtain ⟨n, hn, rfl⟩ := exists_of_mem_targetPaths h
    exact ⟨n, isName_of_mem_artifactNames hn, rfl⟩
  · obtain ⟨q, hq, rfl⟩ := List.mem_map.mp h
    obtain ⟨n, hn, rfl⟩ := exists_of_mem_targetPaths hq
    have hname := isName_of_mem_artifactNames hn
    exact ⟨n ++ ".tmp", .ending (.inr hname), Path.temporaryPath_join source hname⟩

namespace Operation

/-- The operations of a compilation. What is filled or moved has been opened: a temporary was created,
and its place told. -/
inductive Serves (source : String) (opened : String → Location → Prop) : Operation → Prop
  | source : Serves source opened (.read source)
  | evaluate : Serves source opened (.start "jsonnet" [source])
  | format (dialect : Dialect) (text : String) : Serves source opened (.format dialect text)
  | target {p} (h : p ∈ targetPaths source) : Serves source opened (.read p)
  | around : Serves source opened (.makeDirectories (Path.outputDirectory source))
  | create {p} (h : p ∈ targetPaths source) : Serves source opened (.create (temporaryPath p))
  | fill {p place} (h : p ∈ targetPaths source) (ho : opened (temporaryPath p) place)
    (content : ByteArray) : Serves source opened (.fill place content)
  | discard {p} (h : p ∈ targetPaths source) : Serves source opened (.remove (temporaryPath p))
  | install {p place} (h : p ∈ targetPaths source) (ho : opened (temporaryPath p) place) :
    Serves source opened (.rename (temporaryPath p) p)
  | draw : Serves source opened
      (.start "dot" ["-Tsvg", graphPath source, "-o", imagePath source])
  | note (line : LogLine) : Serves source opened (.note line)

/-- All operations of a compilation are allowed, that of drawing the graph if it is asked for. -/
structure Allows (source : String) (opened : String → Location → Prop) (drawsGraph : Bool)
    (ok : Operation → Prop) : Prop where
  read : ok (.read source)
  evaluate : ok (.start "jsonnet" [source])
  format (dialect : Dialect) (text : String) : ok (.format dialect text)
  target {p : String} (h : p ∈ targetPaths source) : ok (.read p)
  around : ok (.makeDirectories (Path.outputDirectory source))
  create {p : String} (h : p ∈ targetPaths source) : ok (.create (temporaryPath p))
  fill {p : String} {place : Location} (h : p ∈ targetPaths source)
    (ho : opened (temporaryPath p) place) (content : ByteArray) : ok (.fill place content)
  discard {p : String} (h : p ∈ targetPaths source) : ok (.remove (temporaryPath p))
  install {p : String} {place : Location} (h : p ∈ targetPaths source)
    (ho : opened (temporaryPath p) place) : ok (.rename (temporaryPath p) p)
  draw (h : drawsGraph = true) :
    ok (.start "dot" ["-Tsvg", graphPath source, "-o", imagePath source])
  note (line : LogLine) : ok (.note line)

theorem serves_allows (source : String) (opened : String → Location → Prop) (drawsGraph : Bool) :
    Allows source opened drawsGraph (Serves source opened) :=
  ⟨.source, .evaluate, .format, .target, .around, .create, .fill, .discard, .install,
    fun _ => .draw, .note⟩

/-- A path whose place is told when a file is created there is opened at that place. -/
def Tells (opened : String → Location → Prop) : (op : Operation) → op.Reply → Prop
  | .create path, .ok place => opened path place
  | _, _ => True

theorem tells_of_forall {opened : String → Location → Prop} (op : Operation) {r : op.Reply}
    (h : ∀ p place, opened p place) : Tells opened op r := by
  unfold Tells
  split
  · exact h _ _
  · trivial

/-- The paths of the files that an operation makes, replaces or takes away. -/
def written : Operation → List String
  | create path => [path]
  | rename source target => [source, target]
  | remove path => [path]
  | _ => []

/-- The place of the file that an operation writes to. -/
def filled? : Operation → Option Location
  | fill place _ => some place
  | _ => none

end Operation

/-- An ending that gives account of a source. -/
def Ending.IsOf (source : String) : Ending → Prop
  | compiled report => report.source = source
  | failed path _ => path = source
  | aborted => False

namespace Job

open Operation

variable {source : String} {opened : String → Location → Prop} {drawsGraph : Bool}
  {ok : Operation → Prop}

/-- What was staged is the temporary of a generated file, and was opened. -/
def Ready (source : String) (opened : String → Location → Prop) (entry : Option Staged) : Prop :=
  ∀ w ∈ entry, ∃ p ∈ targetPaths source, w = ⟨temporaryPath p, p⟩ ∧
    ∃ place, opened (temporaryPath p) place

section

variable (hok : Allows source opened drawsGraph ok)
include hok

theorem discard_always {p : String} (h : p ∈ targetPaths source) :
    (discard ⟨temporaryPath p, p⟩).Always ok (Tells opened) fun _ => True :=
  (Task.always_perform (hok.discard h)).bind fun _ _ => trivial

/-- Whether or not the directory around a generated file is asked for first. -/
theorem always_around {p : String} {next : Unit → Job α} {post : α → Prop}
    (h : p ∈ targetPaths source)
    (hn : (next ()).Always ok (Tells opened) post) :
    Always ok (Tells opened) post
      (if (Path.parent? p).getD "" ≠ "" then
        makeDirectories ((Path.parent? p).getD "") >>= next else next ()) := by
  obtain ⟨n, hmem, rfl⟩ := exists_of_mem_targetPaths h
  rw [Path.parent?_join source (isName_of_mem_artifactNames hmem), Option.getD_some]
  split
  · exact (always_file (Task.always_perform hok.around)).bind fun _ _ => hn
  · exact hn

/-- A temporary is opened where its text is written. -/
theorem writeFile_always {p : String} (h : p ∈ targetPaths source) (content : ByteArray) :
    (Task.writeFile (temporaryPath p) content).Always ok (Tells opened)
      fun r => r = .ok () → ∃ place, opened (temporaryPath p) place := by
  refine (Task.always_perform (hok.create h)).bind fun reply hr => ?_
  cases reply with
  | error fault => exact nofun
  | ok place =>
    exact (Task.always_perform (hok.fill h hr content)).mono (fun _ => id) (fun _ _ => id)
      fun _ _ _ => ⟨place, hr⟩

theorem stage_always {p : String} (content : String) (h : p ∈ targetPaths source) :
    (stage p content).Always ok (Tells opened) (Ready source opened) := by
  refine (always_lift (Task.always_perform (hok.target h))).bind fun reply _ => ?_
  split
  · exact always_pure nofun
  · refine always_around hok h ?_
    refine (always_lift (writeFile_always hok h _)).bind fun reply hr => ?_
    cases reply with
    | ok _ =>
      refine always_pure ?_
      rintro w ⟨⟩
      exact ⟨p, h, rfl, hr rfl⟩
    | error fault => exact (always_lift (discard_always hok h)).bind fun _ _ => always_throw _

theorem commit_always {w : Staged} (h : Ready source opened (some w)) :
    (commit w).Always ok (Tells opened) fun _ => True := by
  obtain ⟨p, hp, rfl, place, ho⟩ := h w rfl
  refine (always_lift (Task.always_perform (hok.install hp ho))).bind fun reply _ => ?_
  cases reply with
  | ok _ => exact always_pure trivial
  | error fault => exact (always_lift (discard_always hok hp)).bind fun _ _ => always_throw _

theorem persist_always {files : List Rendered} (hf : ∀ f ∈ files, f.path ∈ targetPaths source) :
    (persist files).Always ok (Tells opened) fun _ => True := by
  have hdiscard : ∀ w, Ready source opened (some w) →
      (discard w).Always ok (Tells opened) fun _ => True := by
    intro w hw
    obtain ⟨p, hp, rfl, -⟩ := hw w rfl
    exact discard_always hok hp
  exact always_persist hdiscard (fun f hm => stage_always hok f.content (hf f hm))
    fun _ => commit_always hok

end

section

variable {ok : Operation → Prop} {told : (op : Operation) → op.Reply → Prop}

theorem execute_always {program : String} {arguments : List String}
    (h : ok (.start program arguments)) :
    (execute program arguments).Always ok told fun _ => True := by
  refine (always_lift (Task.always_perform h)).bind fun reply _ => ?_
  rcases reply with (_ | _ | _) | result
  · exact always_throw _
  · exact always_throw _
  · exact always_throw _
  · show Always _ _ _ (if result.status = 0 then _ else _)
    split
    · exact always_pure trivial
    · exact always_throw _

theorem readSource_always (hread : ok (.read source)) (hstart : ok (.start "jsonnet" [source])) :
    (readSource source).Always ok told fun _ => True := by
  have htext : (readText source).Always ok told fun _ => True := by
    refine (always_file (Task.always_perform hread)).bind fun content _ => ?_
    cases String.fromUTF8? content with
    | some s => exact always_pure trivial
    | none => exact always_throw _
  unfold readSource
  split
  on_goal 1 => refine htext.bind fun text _ => ?_
  on_goal 2 => refine (execute_always hstart).bind fun text _ => ?_
  -- the text is parsed in the same way wherever it comes from
  all_goals
    beta_reduce
    cases Json.parse text with
    | ok j => exact always_pure trivial
    | error e => exact always_throw _

theorem note_always (h : ∀ line, ok (.note line)) (level : LogLevel) (origin : LogOrigin)
    (text : String) :
    Always ok told (fun _ => True) (liftM (Task.note level origin text) : Job Unit) :=
  always_lift ((Task.always_perform (h _)).mono (fun _ => id) (fun _ _ => id) fun _ _ => trivial)

theorem render_always (h : ∀ dialect text, ok (.format dialect text)) (directory : String)
    (a : Artifact) : (render directory a).Always ok told
      fun f => Path.join directory a.fileName = f.path := by
  unfold render
  cases a.payload with
  | text content => exact always_pure rfl
  | source dialect joinsParams ds =>
    refine (always_lift (Task.always_perform (h dialect (sourceText ds)))).bind fun reply _ => ?_
    cases reply with
    | some s => exact always_pure rfl
    | none => exact always_throw _

theorem artifacts_fileName (t : Tree) : t.artifacts.map (·.fileName) = artifactNames := rfl

/-- The files that a source compiles to are at the target paths, in their order. -/
theorem compileTree_always (hnote : ∀ line, ok (.note line))
    (hformat : ∀ dialect text, ok (.format dialect text)) (raw : Json) :
    (compileTree source raw).Always ok told
      fun compiled => compiled.files.map (·.path) = targetPaths source := by
  cases ht : Tree.ofJson raw with
  | error fault =>
    simp only [compileTree, ht]
    exact always_throw _
  | ok tree =>
    simp only [compileTree, ht]
    refine (always_forM fun warning _ => note_always hnote _ _ _).bind fun _ _ => ?_
    refine (always_mapM fun a _ => render_always hformat _ a).bind fun files hfiles => ?_
    have hpaths : tree.artifacts.map (fun a => Path.join (Path.outputDirectory source) a.fileName) =
        files.map (·.path) := by
      rwa [← List.forall₂_eq_eq_eq, List.forall₂_map_left_iff, List.forall₂_map_right_iff]
    refine always_pure (hpaths.symm.trans ?_)
    rw [targetPaths, ← artifacts_fileName tree, List.map_map]
    rfl

end

/-- What is left to do once the files are installed. -/
def report (drawsGraph : Bool) (source : String) (compiled : Compiled)
    (written : List (String × WriteOutcome)) : Job FileReport := do
  Task.note .info .pipeline "NavigationBuilder: done"
  Task.note .info .pipeline "RoutesBuilder: done"
  if drawsGraph then
    renderGraph (graphPath source) (imagePath source)
    Task.note .info .pipeline ("GraphBuilder: done, file exported to " ++ imagePath source)
  return ⟨source, written, compiled.templates⟩

theorem compileFile_eq (drawsGraph : Bool) (source : String) : compileFile drawsGraph source =
    readSource source >>= fun raw => compileTree source raw >>= fun compiled =>
      persist compiled.files >>= report drawsGraph source compiled := rfl

section

variable (hok : Allows source opened drawsGraph ok)
include hok

theorem report_always (compiled : Compiled) (written : List (String × WriteOutcome)) :
    (report drawsGraph source compiled written).Always ok (Tells opened)
      fun report => report.source = source := by
  unfold report
  refine (note_always hok.note _ _ _).bind fun _ _ => ?_
  refine (note_always hok.note _ _ _).bind fun _ _ => ?_
  cases drawsGraph with
  | false => exact always_pure rfl
  | true =>
    have hdraw : (renderGraph (graphPath source) (imagePath source)).Always ok (Tells opened)
        fun _ => True := (execute_always (hok.draw rfl)).bind fun _ _ => always_pure trivial
    refine hdraw.bind fun _ _ => ?_
    exact (note_always hok.note _ _ _).bind fun _ _ => always_pure rfl

theorem compileFile_always : (compileFile drawsGraph source).Always ok (Tells opened)
    fun report => report.source = source := by
  rw [compileFile_eq]
  refine (readSource_always hok.read hok.evaluate).bind fun raw _ => ?_
  refine (compileTree_always hok.note hok.format raw).bind fun compiled hfiles => ?_
  have hpaths : ∀ f ∈ compiled.files, f.path ∈ targetPaths source := by
    intro f hf
    rw [← hfiles]
    exact List.mem_map_of_mem hf
  exact (persist_always hok hpaths).bind fun written _ => report_always hok compiled written

end

end Job

/-- What is allowed of all operations of a compilation is what compiling a source does, whatever is
replied, and it gives account of the source. -/
theorem compileSource_allowed {options : Options} {source : String}
    {opened : String → Location → Prop} {ok : Operation → Prop}
    (hok : Operation.Allows source opened options.drawsGraph ok) :
    (compileSource options source).Always ok (Operation.Tells opened) (Ending.IsOf source) := by
  refine (Job.compileFile_always hok).run.bind fun r hr => ?_
  cases r with
  | ok report => exact hr report rfl
  | error fault => exact (Task.always_perform (hok.note _)).bind fun _ _ => rfl

/-- Compiling a source performs its operations only, whatever is replied, and gives account of it. -/
theorem compileSource_always (options : Options) (source : String)
    (opened : String → Location → Prop) :
    (compileSource options source).Always (Operation.Serves source opened) (Operation.Tells opened)
      (Ending.IsOf source) :=
  compileSource_allowed (Operation.serves_allows source opened options.drawsGraph)

end NavTree
