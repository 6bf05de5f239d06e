import SankeyDiagram.Command.Outcome
import SankeyDiagram.Proofs.Restacking
import SankeyDiagram.Proofs.RoundTrip
import SankeyDiagram.Proofs.Session

/-! # What printed documents tell

A printed document holds settings and a diagram. The diagram is the layout for these settings,
but for the number of rounds: a number among the words of a command line is used and is not put
into the settings that are printed, nor into their digest.

* **`Report.ofRequest_eq_ok_iff`** which reports there are for a request.
* **`Outcome.printout_eq_document_iff`** which documents are printed.
* **`Outcome.printed_layout`** whose layout a printed diagram is.
* **`Outcome.printed_config_merging`** two documents with the same settings and other diagrams. -/

namespace SankeyDiagram

/-- The number of rounds of a layout: the one that the arguments give, if they give one, and
otherwise that of the settings. -/
def Arguments.rounds (a : Arguments) (c : Config Binary64) : Nat :=
  a.iterations.getD c.iterations

namespace Report

/-- A report shows what a request and the arguments ask for. -/
structure Shows (report : Report) (request : Request) (a : Arguments) : Prop where
  /-- The settings are the standard ones with the overrides of the request, and are accepted. -/
  config : Config.standard.apply request.overrides = .ok report.config
  /-- The diagram is the layout for these settings, with the number of rounds asked for. -/
  diagram : layout request.names request.flows
    (report.config.withIterations (a.rounds report.config)) = .ok report.diagram
  /-- Curves are there if they are asked for, and are those of the diagram. -/
  paths : report.paths = if a.paths then some (pathsOf report.config report.diagram) else none

variable {request : Request} {a : Arguments} {report : Report}

/-- `Report.ofRequest` puts overrides into `Config.standard`, and lays out names and flows with the
result. -/
theorem ofRequest_eq : ofRequest request a = match Config.standard.apply request.overrides with
    | .error reason => .error (.config reason)
    | .ok config => ofSession ⟨config, request.names, request.flows, none⟩ a := by
  rw [ofRequest, Session.configure, Session.standard, Session.blank]
  cases Config.standard.apply request.overrides <;> rfl

/-- `ofRequest request a = .ok report` iff `report.Shows request a`. -/
theorem ofRequest_eq_ok_iff : ofRequest request a = .ok report ↔ report.Shows request a := by
  rw [ofRequest_eq]
  cases hconfig : Config.standard.apply request.overrides with
  | error reason =>
    refine ⟨fun h => (by cases h), fun h => ?_⟩
    have hok := h.config
    rw [hconfig] at hok
    cases hok
  | ok config =>
    -- a session that nothing was done in lays out what it was started with
    have hlayout := Session.layout_snd (s := ⟨config, request.names, request.flows, none⟩)
      (Config.error?_of_apply hconfig) (a.rounds config)
    simp only [ofSession]
    rw [← Arguments.rounds, hlayout]
    constructor
    · intro h
      cases hdiagram : layout request.names request.flows
          (config.withIterations (a.rounds config)) with
      | error reason =>
        rw [hdiagram] at h
        cases h
      | ok d =>
        rw [hdiagram] at h
        cases h
        exact ⟨hconfig, hdiagram, rfl⟩
    · intro h
      obtain rfl : config = report.config := Except.ok.inj (hconfig.symm.trans h.config)
      rw [h.diagram]
      show Except.ok (Report.mk _ _ _) = _
      rw [← h.paths]

/-- `ofText text a = .ok report` iff `text` is a request and `report` shows it. -/
theorem ofText_eq_ok_iff {text : String} : ofText text a = .ok report
    ↔ ∃ request, readText Request.read text = .ok request ∧ report.Shows request a := by
  rw [ofText]
  cases readText Request.read text with
  | error fault => exact ⟨fun h => (by cases h), fun ⟨_, h, _⟩ => (by cases h)⟩
  | ok request =>
    have hok : (ofRequest request a).mapError ReportError.layout = .ok report
        ↔ ofRequest request a = .ok report := by
      cases ofRequest request a <;> simp [Except.mapError]
    refine (hok.trans ofRequest_eq_ok_iff).trans ⟨fun h => ⟨request, rfl, h⟩, ?_⟩
    rintro ⟨_, h, hshows⟩
    cases h
    exact hshows

/-- Two reports on the same names and flows, of the same settings and with the same number of
rounds, show one diagram. -/
theorem Shows.diagram_unique {request' : Request} {a' : Arguments} {report' : Report}
    (h : report.Shows request a) (h' : report'.Shows request' a')
    (hnames : request'.names = request.names) (hflows : request'.flows = request.flows)
    (hconfig : report'.config = report.config)
    (hrounds : a'.rounds report.config = a.rounds report.config) :
    report'.diagram = report.diagram := by
  have hdiagram := h'.diagram
  rw [hnames, hflows, hconfig, hrounds, h.diagram] at hdiagram
  exact (Except.ok.inj hdiagram).symm

end Report

namespace Outcome

variable {readInput : Arguments → Id (Option String)} {words : List String} {document : Json}

/-- A document is printed iff the words ask for a layout, the input can be read and is a request,
and the document is that of a report with `Shows`. -/
theorem printout_eq_document_iff : (ofWords readInput words).printout = .document document
    ↔ ∃ a text request report, Command.ofWords words = .ok (.layout a) ∧
        readInput a = some text ∧ readText Request.read text = .ok request ∧
        Report.Shows report request a ∧ document = report.write := by
  -- every way but one through the program prints a text or nothing
  rw [ofWords]
  cases Command.ofWords words with
  | error e => exact ⟨fun h => (by cases h), fun ⟨_, _, _, _, h, _⟩ => (by cases h)⟩
  | ok command =>
    cases command with
    | help | version => exact ⟨fun h => (by cases h), fun ⟨_, _, _, _, h, _⟩ => (by cases h)⟩
    | layout a =>
      show (match readInput a with
        | none => unreadable
        | some text => ofReport (Report.ofText text a) : Outcome).printout = _ ↔ _
      cases hinput : readInput a with
      | none =>
        refine ⟨fun h => (by cases h), ?_⟩
        rintro ⟨_, _, _, _, ha, htext, _⟩
        cases ha
        rw [hinput] at htext
        cases htext
      | some text =>
        constructor
        · intro h
          cases hreport : Report.ofText text a with
          | error e =>
            simp only [hreport, ofReport] at h
            cases h
          | ok report =>
            simp only [hreport, ofReport] at h
            cases h
            obtain ⟨request, hrequest, hshows⟩ := Report.ofText_eq_ok_iff.1 hreport
            exact ⟨a, text, request, report, rfl, hinput, hrequest, hshows, rfl⟩
        · rintro ⟨_, _, request, report, ha, htext, hrequest, hshows, rfl⟩
          cases ha
          rw [hinput] at htext
          cases htext
          simp only [Report.ofText_eq_ok_iff.2 ⟨request, hrequest, hshows⟩, ofReport]

/-- **The diagram of a printed document is the layout for the names and flows of the request and the
printed settings, with the number of rounds that the words ask for in place of theirs. So it is the
layout for the printed settings unless the words give another number, and reports on the same names
and flows that agree in settings and rounds agree in the diagram.** -/
theorem printed_layout (h : (ofWords readInput words).printout = .document document) :
    ∃ (a : Arguments) (request : Request) (report : Report),
      Command.ofWords words = .ok (.layout a) ∧
      (∃ text, readInput a = some text ∧ readText Request.read text = .ok request) ∧
      document = report.write ∧ Config.standard.apply request.overrides = .ok report.config ∧
      layout request.names request.flows
        (report.config.withIterations (a.rounds report.config)) = .ok report.diagram ∧
      ((∀ n, a.iterations = some n → n = report.config.iterations) →
        layout request.names request.flows report.config = .ok report.diagram) ∧
      ∀ other b again, Report.ofRequest other b = .ok again → other.names = request.names →
        other.flows = request.flows → again.config = report.config →
        b.rounds report.config = a.rounds report.config →
        again.diagram = report.diagram := by
  obtain ⟨a, text, request, report, ha, htext, hrequest, hshows, rfl⟩ :=
    printout_eq_document_iff.1 h
  refine ⟨a, request, report, ha, ⟨text, htext, hrequest⟩, rfl, hshows.config, hshows.diagram, ?_,
    ?_⟩
  · intro hsame
    -- words without a number of rounds, or with that of the settings, ask for theirs
    have hrounds : a.rounds report.config = report.config.iterations := by
      rw [Arguments.rounds]
      cases hn : a.iterations with
      | none => rfl
      | some n => exact hsame n hn
    have hdiagram := hshows.diagram
    rw [hrounds] at hdiagram
    exact hdiagram
  · intro other b again hagain hnames hflows hconfig hrounds
    exact hshows.diagram_unique (Report.ofRequest_eq_ok_iff.1 hagain) hnames hflows hconfig hrounds

/-- Two flows into one node, to be laid out with one round. -/
def merging : Request :=
  ⟨["a", "b", "c"], [⟨.named "a", .named "c", 1⟩, ⟨.named "b", .named "c", 1⟩],
    { Overrides.none with iterations := some 1 }⟩

/-- The upper edge of the node that the two flows enter, after a number of rounds. -/
def mergedTop (rounds : Nat) : Option Binary64 :=
  (layout merging.names merging.flows (Config.standard.withIterations rounds)).toOption.map
    fun d => (d.node ⟨2⟩).y

/-- The round moves the node down: `mergedTop 0` is zero, and `mergedTop 1` is not. -/
theorem mergedTop_zero_one : mergedTop 0 = some 0 ∧ (mergedTop 1).any (0 < ·) := by
  -- sorting by merging is not evaluated by the kernel, sorting by insertion is
  simp only [mergedTop, layout, Config.withIterations, Diagram.ofFlowsPlaced, Diagram.placed,
    Diagram.withColumns, Columns.relaxed, Columns.round, Columns.settled, Diagram.withSlots,
    Diagram.withLinkOrder, Diagram.fromTop_eq_insertionSort, Diagram.fromTopEnd_eq_insertionSort]
  decide +kernel

/-- Words that ask for a layout of `merging` without curves have its document printed, with the
settings of the request. -/
theorem exists_printed_merging {a : Arguments} {y : Binary64}
    (hwords : Command.ofWords words = .ok (.layout a)) (hpaths : a.paths = false)
    (hy : mergedTop (a.iterations.getD 1) = some y) :
    ∃ report : Report,
      (ofWords (m := Id) (fun _ => some merging.write.compact) words).printout
          = .document report.write ∧
        report.config = Config.standard.withIterations 1 ∧
        layout merging.names merging.flows
          (Config.standard.withIterations (a.iterations.getD 1)) = .ok report.diagram ∧
        (report.diagram.node ⟨2⟩).y = y := by
  have hlegible : merging.write.Legible := by decide +kernel
  have hread := (Request.undoes.readText hlegible).1
  have hconfig : Config.standard.apply merging.overrides
      = .ok (Config.standard.withIterations 1) := by decide +kernel
  rw [mergedTop] at hy
  cases hlayout : layout merging.names merging.flows
      (Config.standard.withIterations (a.iterations.getD 1)) with
  | error reason =>
    rw [hlayout] at hy
    cases hy
  | ok d =>
    rw [hlayout] at hy
    -- the report that is printed, with the settings of the request
    let report : Report := ⟨Config.standard.withIterations 1, d, none⟩
    have hdiagram : layout merging.names merging.flows
        (report.config.withIterations (a.rounds report.config)) = .ok report.diagram := hlayout
    have hshows : report.Shows merging a := ⟨hconfig, hdiagram, by rw [hpaths]; rfl⟩
    refine ⟨report, printout_eq_document_iff.2 ?_, rfl, rfl, Option.some.inj hy⟩
    exact ⟨a, _, merging, report, hwords, rfl, hread, hshows, rfl⟩

/-- With `--iterations 0` the request is printed with the layout for no rounds, and with settings
that tell of one. -/
theorem printed_layout_merging :
    ∃ (document : Json) (report : Report),
      (ofWords (m := Id) (fun _ => some merging.write.compact) ["--iterations", "0"]).printout
          = .document document ∧
        document = report.write ∧
        ∃ request : Request, readText Request.read merging.write.compact = .ok request ∧
          layout request.names request.flows (report.config.withIterations 0)
            = .ok report.diagram := by
  have hwords : Command.ofWords ["--iterations", "0"] = .ok (.layout ⟨none, false, some 0⟩) := by
    decide
  obtain ⟨left, hleft, -⟩ := exists_printed_merging hwords rfl mergedTop_zero_one.1
  obtain ⟨a, request, report, ha, ⟨text, htext, hrequest⟩, hdocument, -, hlayout, -⟩ :=
    printed_layout hleft
  have htext : some merging.write.compact = some text := htext
  rw [← Option.some.inj htext] at hrequest
  rw [hwords] at ha
  cases ha
  exact ⟨_, report, hleft, hdocument, request, hrequest, hlayout⟩

/-- The request is printed with its one round and without: settings and digest of settings are the
same, and tell the layout of one of the two documents only. -/
theorem printed_config_merging :
    ∃ moved left : Report,
      (ofWords (m := Id) (fun _ => some merging.write.compact) []).printout
          = .document moved.write ∧
        (ofWords (m := Id) (fun _ => some merging.write.compact) ["--iterations", "0"]).printout
          = .document left.write ∧
        left.config = moved.config ∧ left.config.fingerprint = moved.config.fingerprint ∧
        layout merging.names merging.flows left.config = .ok moved.diagram ∧
        left.diagram ≠ moved.diagram := by
  obtain ⟨hzero, hone⟩ := mergedTop_zero_one
  obtain ⟨y, hy, hpositive⟩ := (Option.any_eq_true ..).1 hone
  have hplain : Command.ofWords [] = .ok (.layout .none) := rfl
  have hwords : Command.ofWords ["--iterations", "0"] = .ok (.layout ⟨none, false, some 0⟩) := by
    decide
  obtain ⟨moved, hmoved, hconfig, hlayout, htop⟩ := exists_printed_merging hplain rfl hy
  obtain ⟨left, hleft, hconfig', -, htop'⟩ := exists_printed_merging hwords rfl hzero
  have hsame : left.config = moved.config := hconfig'.trans hconfig.symm
  refine ⟨moved, left, hmoved, hleft, hsame, congrArg Config.fingerprint hsame, ?_, fun heq => ?_⟩
  · rw [hconfig']
    exact hlayout
  · -- one diagram would have its third node at two heights
    rw [heq, htop] at htop'
    rw [htop'] at hpositive
    exact absurd hpositive (by decide)

end Outcome

end SankeyDiagram
