import IndentMarkup.CommandLine.Run
import IndentMarkup.Proofs.CommandLine.Directory
import IndentMarkup.Proofs.Result

/-! What a call does to the files, whatever storage keeps them. A build reads its template, then
compiles it, and opens and writes its output last. So a call that fails leaves everything as it was,
unless the writing of the output itself breaks off, and any other one has touched nothing but the
output. -/
namespace IndentMarkup

namespace CommandLine

variable {σ Folder File Bytes : Type} {view : View σ Folder File Bytes}
  {storage : Storage (StateM σ) File}

theorem bind_run {α β : Type} (first : ExceptT String (StateM σ) α)
    (next : α → ExceptT String (StateM σ) β) (s : σ) :
    (first >>= next).run.run s =
      match first.run.run s with
      | (.ok value, after) => (next value).run.run after
      | (.error error, after) => (.error error, after) := by
  rw [ExceptT.run_bind, StateT.run_bind]
  cases first.run.run s with
  | mk result after => cases result <;> rfl

theorem adapt_run {α : Type} (action : ExceptT String (StateM σ) α) (f : String → String) (s : σ) :
    (action.adapt f).run.run s =
      ((action.run.run s).1.mapError f, (action.run.run s).2) := rfl

theorem pure_run {α : Type} (result : Except String α) (s : σ) :
    (liftM result : ExceptT String (StateM σ) α).run.run s = (result, s) := by
  cases result <;> rfl

/-- The computation makes and changes no file. -/
def Quiet (view : View σ Folder File Bytes) {α : Type} (action : ExceptT String (StateM σ) α) :
    Prop :=
  ∀ s, view.Same s (action.run.run s).2

theorem Quiet.bind {α β : Type} {first : ExceptT String (StateM σ) α}
    {next : α → ExceptT String (StateM σ) β} (quiet : Quiet view first)
    (later : ∀ value, Quiet view (next value)) : Quiet view (first >>= next) := by
  intro s
  have begun := quiet s
  rw [bind_run]
  split
  next value after ran =>
    rw [ran] at begun
    exact begun.trans (later value after)
  next ran =>
    rw [ran] at begun
    exact begun

theorem quiet_pure {α : Type} (result : Except String α) :
    Quiet view (liftM result : ExceptT String (StateM σ) α) :=
  fun s => by rw [pure_run]; exact .refl s

theorem readSource_run (storage : Storage (StateM σ) File) (s : σ) (path : Text) :
    (readSource storage path).run.run s =
      match (storage.isPresent path).run s with
      | (true, asked) => (((storage.read path).run asked).1.mapError (complaint "Error reading" path),
          ((storage.read path).run asked).2)
      | (false, asked) => (.error ("Error: file not found: " ++ String.ofList path), asked) := by
  have asked : (readSource storage path).run.run s =
      match (storage.isPresent path).run s with
      | (present, asked) =>
        ((if present then (ExceptT.mk (storage.read path)).adapt (complaint "Error reading" path)
        else throw ("Error: file not found: " ++ String.ofList path) :
          ExceptT String (StateM σ) Text)).run.run asked := rfl
  rw [asked]
  cases (storage.isPresent path).run s with
  | mk present asked => cases present <;> rfl

/-- Reading makes and changes no file, and what is read is held by the file at the path. -/
theorem readSource_reads (lawful : view.Lawful storage) (s : σ) (path : Text) :
    view.Same s ((readSource storage path).run.run s).2 ∧
      ∀ source, ((readSource storage path).run.run s).1 = .ok source →
        ∃ file, view.lookup s path = some file ∧ view.held s file = some (view.encode source) := by
  have asked := lawful.isPresent s path
  rw [readSource_run]
  generalize (storage.isPresent path).run s = answer at asked
  obtain ⟨present, after⟩ := answer
  cases present with
  | false => exact ⟨asked, fun _ => nofun⟩
  | true =>
    refine ⟨asked.trans (lawful.read after path), fun source read => ?_⟩
    have text : ((storage.read path).run after).1 = .ok source := by
      cases found : ((storage.read path).run after).1 with
      | error error => simp [found, Except.mapError] at read
      | ok text => simpa [found, Except.mapError] using read
    obtain ⟨file, leads, held⟩ := lawful.read_ok after path source text
    rw [asked.lookup] at leads
    rw [asked.held] at held
    exact ⟨file, leads, held⟩

theorem quiet_readSource (lawful : view.Lawful storage) (path : Text) :
    Quiet view (readSource storage path) :=
  fun s => (readSource_reads lawful s path).1

theorem quiet_check (lawful : view.Lawful storage) (path : Text) :
    Quiet view (check storage path) :=
  (quiet_readSource lawful path).bind fun source =>
    (quiet_pure (compile path source {})).bind fun _ => quiet_pure (.ok ())

theorem quiet_tokens (lawful : view.Lawful storage) (path : Text) :
    Quiet view (tokens storage path) :=
  (quiet_readSource lawful path).bind fun source => quiet_pure (listTokens path source)

/-- Writing changes nothing where the file cannot be opened. From there on the file at the path is
touched, whether the text gets into it or not. -/
theorem write_run (lawful : view.Lawful storage) (s : σ) (path text : Text) :
    (∃ error after, (storage.write path text).run.run s = (.error error, after) ∧
      view.Same s after) ∨
    ∃ result after file, (storage.write path text).run.run s = (result, after) ∧
      view.Touched path file s after := by
  rw [Storage.write, bind_run]
  cases opened : (storage.create path).run s with
  | mk result after =>
    cases result with
    | error error =>
      exact .inl ⟨error, after, by rw [ExceptT.run_mk, opened],
        lawful.create_error s after path error opened⟩
    | ok file =>
      have touched := lawful.create_ok s after path file opened
      rw [ExceptT.run_mk, opened]
      exact .inr ⟨_, _, file, rfl, touched.filled (lawful.fill after file text)⟩

/-- How a build ends: before its output is opened, or in writing it, or with all of it written. -/
inductive Built (view : View σ Folder File Bytes) (s : σ) (path target : Text)
    (options : RenderOptions) : Except String Text × σ → Prop where
  | failed {error : String} {after : σ} (same : view.Same s after) :
      Built view s path target options (.error error, after)
  | broken {reason : String} {file : File} {after : σ} (touched : view.Touched target file s after) :
      Built view s path target options (.error (complaint "Error writing" target reason), after)
  | done {source markup : Text} {template file : File} {after : σ}
      (leads : view.lookup s path = some template)
      (held : view.held s template = some (view.encode source))
      (compiled : compile path source options = .ok markup)
      (touched : view.Touched target file s after) :
      Built view s path target options (.ok target, after)

theorem build_run (lawful : view.Lawful storage) (s : σ) (path : Text) (out : Option Text)
    (options : RenderOptions) :
    Built view s path (out.getD (Path.defaultOutput path)) options
      ((build storage path out options).run.run s) := by
  obtain ⟨same, holds⟩ := readSource_reads lawful s path
  rw [build, bind_run]
  generalize (readSource storage path).run.run s = read at same holds
  obtain ⟨result, asked⟩ := read
  cases result with
  | error error => exact .failed same
  | ok source =>
    obtain ⟨template, leads, held⟩ := holds source rfl
    dsimp only
    rw [bind_run, pure_run]
    cases compiled : compile path source options with
    | error error => exact .failed same
    | ok markup =>
      dsimp only
      rw [bind_run, adapt_run]
      obtain ⟨error, after, written, unchanged⟩ | ⟨result, after, file, written, touched⟩ :=
        write_run lawful asked (out.getD (Path.defaultOutput path)) (fileText options markup)
      · rw [written]
        exact .failed (same.trans unchanged)
      · rw [written]
        cases result with
        | error reason => exact .broken (touched.of_same same)
        | ok => exact .done leads held compiled (touched.of_same same)

theorem respond_build (storage : Storage (StateM σ) File) (s : σ) (path : Text) (out : Option Text)
    (options : RenderOptions) :
    (respond storage (.ok (.build path out options))).run s =
      match (build storage path out options).run.run s with
      | (.ok target, after) =>
        ({ status := 0, stderr := "Built: " ++ String.ofList target ++ "\n" }, after)
      | (.error line, after) => ({ status := 1, stderr := line ++ "\n" }, after) := by
  rw [respond, StateT.run_bind, answer, bind_run]
  cases (build storage path out options).run.run s with
  | mk result after => cases result <;> rfl

/-- Of all requests, only builds make or change files. -/
theorem respond_same (lawful : view.Lawful storage) (s : σ)
    {called : Except Interruption Request}
    (other : ∀ path out options, called ≠ .ok (.build path out options)) :
    view.Same s ((respond storage called).run s).2 := by
  have quiet {request : Request} (same : Quiet view (answer storage request)) :
      view.Same s ((respond storage (.ok request)).run s).2 := by
    have same := same s
    rw [respond, StateT.run_bind]
    generalize (answer storage request).run.run s = answered at same
    obtain ⟨result, after⟩ := answered
    cases result <;> exact same
  rcases called with interruption | ⟨path, out, options⟩ | path | path
  · cases interruption <;> exact .refl s
  · exact absurd rfl (other path out options)
  · exact quiet ((quiet_check lawful path).bind fun _ => quiet_pure (.ok _))
  · exact quiet ((quiet_tokens lawful path).bind fun _ => quiet_pure (.ok _))

/-- Building keeps the template, on any storage that keeps the laws. A call that fails makes and
changes no file, unless it is a build whose output was opened before the writing broke off: then that
is the only file it has touched. A build with no path given for its output has read its template, and
the template is kept. It is lost only where the output is the same file, which then is named as markup
already or has both names. -/
theorem respond_keeps_template (lawful : view.Lawful storage)
    (called : Except Interruption Request) (s : σ) :
    let outcome := ((respond storage called).run s).1
    let after := ((respond storage called).run s).2
    (outcome.status ≠ 0 → view.Same s after ∨
      ∃ path out options reason file, called = .ok (.build path out options) ∧
        outcome.stderr =
          complaint "Error writing" (out.getD (Path.defaultOutput path)) reason ++ "\n" ∧
        view.Touched (out.getD (Path.defaultOutput path)) file s after) ∧
    ∀ path options, called = .ok (.build path none options) →
      (outcome.status = 0 → ∃ template source markup, view.lookup s path = some template ∧
        view.held s template = some (view.encode source) ∧
        compile path source options = .ok markup) ∧
      ∀ template bytes, view.lookup s path = some template → view.held s template = some bytes →
        (view.lookup after path = some template ∧ view.held after template = some bytes) ∨
        view.lookup s (Path.defaultOutput path) = some template ∧
          ((∃ base, base ≠ [] ∧ Path.fileName? path = some (base ++ ".html".toList)) ∨
            view.Linked s template) := by
  dsimp only
  by_cases built : ∃ path out options, called = .ok (.build path out options)
  · obtain ⟨path, out, options, rfl⟩ := built
    have built := build_run lawful s path out options
    rw [respond_build]
    generalize (build storage path out options).run.run s = ran at built
    constructor
    · intro failed
      cases built with
      | failed same => exact .inl same
      | broken touched => exact .inr ⟨path, out, options, _, _, rfl, rfl, touched⟩
      | done => exact absurd rfl failed
    · intro _ _ given
      obtain ⟨rfl, rfl, rfl⟩ := Request.build.inj (Except.ok.inj given)
      cases built with
      | failed same =>
        refine ⟨nofun, fun template bytes leads held => .inl ⟨?_, ?_⟩⟩
        · rwa [same.lookup]
        · rwa [same.held]
      | broken touched => exact ⟨nofun, fun _ _ => lawful.kept_or_output touched⟩
      | done leads held compiled touched =>
        exact ⟨fun _ => ⟨_, _, _, leads, held, compiled⟩, fun _ _ => lawful.kept_or_output touched⟩
  · have same := respond_same lawful s fun path out options given =>
      built ⟨path, out, options, given⟩
    exact ⟨fun _ => .inl same, fun path options given => absurd ⟨path, none, options, given⟩ built⟩

/-- The markup does not fit, and the file next to the template is left with what there is room for. -/
theorem respond_keeps_template_broken :
    let d : Directory :=
      { files := [(["t.jade".toList], some "p x".toList), (["t.html".toList], none)], room := some 3 }
    let (outcome, after) :=
      (respond Directory.storage (.ok (.build "t.jade".toList none {}))).run d
    outcome = ⟨1, "", "Error writing t.html: No space left on device (os error 28)\n"⟩ ∧
      after.read "t.html".toList = .ok "<p>".toList ∧
      Directory.view.lookup after "t.jade".toList = some (.kept ["t.jade".toList]) ∧
      after.held (.kept ["t.jade".toList]) = some (some "p x".toList) := by
  intro d
  have kept := ((respond_keeps_template Directory.lawful
    (.ok (.build "t.jade".toList none {})) d).2 _ _ rfl).2
      (.kept ["t.jade".toList]) (some "p x".toList) (by decide +kernel) (by decide +kernel)
  have apart : Directory.view.lookup d (Path.defaultOutput "t.jade".toList) ≠
      some (.kept ["t.jade".toList]) := by decide +kernel
  have kept := kept.resolve_right fun same => apart same.1
  exact ⟨by decide +kernel, by decide +kernel, kept.1, kept.2⟩

/-- Without the exceptions it would be wrong: a template that is named as markup is lost, so is one
that has the name of its output as well, and a build that fails can leave a new file behind. -/
theorem not_respond_keeps_template :
    let run (d : Directory) (path : Text) :=
      (respond Directory.storage (.ok (.build path none {}))).run d
    let named := run { files := [(["x.html".toList], some "p x".toList)] } "x.html".toList
    let linked := run { files := [(["t.jade".toList], some "p x".toList)],
                        links := [(["t.html".toList], ["t.jade".toList])] } "t.jade".toList
    let broken := run { files := [(["t.jade".toList], some "p x".toList)], room := some 3 }
      "t.jade".toList
    (named.1.status = 0 ∧ named.2.read "x.html".toList = .ok "<p>x</p>".toList) ∧
      (linked.1.status = 0 ∧ linked.2.read "t.jade".toList = .ok "<p>x</p>".toList) ∧
      broken.1.status = 1 ∧ broken.2.read "t.html".toList = .ok "<p>".toList := by
  decide +kernel

end CommandLine

end IndentMarkup
