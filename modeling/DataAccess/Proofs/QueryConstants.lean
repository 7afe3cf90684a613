import DataAccess.Proofs.ConstantGroups
import DataAccess.Proofs.DeclaredIdentifiers
import DataAccess.Proofs.OwnStatements
import DataAccess.Proofs.UnitImports

set_option autoImplicit false

/-! # SQL in Go source

The SQL of a method stands as a constant in the file of its model. To read it back, the file is cut
into tokens and its constants are looked up by name (`readConstant?`). What stands before the
constants must not get in the way: the header is a comment, and neither the package clause nor the
imports nor the list of statements hold the keyword of a constant (`Skipped`).

The main result is that the SQL of a method is read back exactly if it is preserved by its place:
it has a back quote, so that it is quoted, or it has no carriage return and, if the model has other
methods, no line feed (`query_constant_read_iff`). -/

namespace DataAccess.Go

open DataAccess.Text

/-! ## Source without constants -/

/-- A piece of source that leaves nothing open and declares no constant. -/
abbrev Skipped (cs : List Char) : Prop :=
  (Text.scan Reading.step .nothing cs).2 = .nothing ∧
    .word "const" ∉ (Text.scan Reading.step .nothing cs).1

theorem Reads.skipped {cs : List Char} {ts : List Token} (h : Reads cs ts)
    (hts : .word "const" ∉ ts) : Skipped cs := by
  rw [Skipped, h]
  exact ⟨rfl, hts⟩

theorem constants_append {ts : List Token} (h : .word "const" ∉ ts) (rest : List Token) :
    constants false (ts ++ rest) = constants false rest := by
  induction ts with
  | nil => rfl
  | cons t ts ih =>
      obtain ⟨ht, hts⟩ : t ≠ .word "const" ∧ .word "const" ∉ ts := by
        rw [List.mem_cons, not_or] at h
        exact ⟨fun heq => h.1 heq.symm, h.2⟩
      have hstep : constants false (t :: (ts ++ rest)) = constants false (ts ++ rest) := by
        rw [constants]
        · rintro rest' rfl
          exact absurd rfl ht
        · rintro name value rest' rfl
          exact absurd rfl ht
      rw [List.cons_append, hstep, ih hts]

namespace Skipped

variable {cs ds : List Char}

theorem reads (h : Skipped cs) : Reads cs (Text.scan Reading.step .nothing cs).1 := Prod.ext rfl h.1

theorem append (hcs : Skipped cs) (hds : Skipped ds) : Skipped (cs ++ ds) := by
  refine (hcs.reads.append hds.reads).skipped fun hmem => ?_
  rcases List.mem_append.1 hmem with h | h
  · exact hcs.2 h
  · exact hds.2 h

theorem intercalate {α : Type} {separator : List Char} (hsep : Skipped separator)
    {source : α → List Char} {as : List α} (h : ∀ a ∈ as, Skipped (source a)) :
    Skipped (List.intercalate separator (as.map source)) := by
  induction as with
  | nil => exact reads_nil.skipped (by simp)
  | cons a as ih =>
      obtain ⟨ha, has⟩ := List.forall_mem_cons.1 h
      cases as with
      | nil => simpa using ha
      | cons b as =>
          rw [List.map_cons, List.map_cons, List.intercalate_cons_cons]
          exact (ha.append hsep).append (ih has)

theorem flatMap {α : Type} {source : α → List Char} {as : List α}
    (h : ∀ a ∈ as, Skipped (source a)) : Skipped (as.flatMap source) := by
  induction as with
  | nil => exact reads_nil.skipped (by simp)
  | cons a as ih =>
      obtain ⟨ha, has⟩ := List.forall_mem_cons.1 h
      rw [List.flatMap_cons]
      exact ha.append (ih has)

/-- The constants are those of what follows. -/
theorem constants_tokens (h : Skipped cs) (ds : List Char) :
    constants false (tokens (cs ++ ds)) = constants false (tokens ds) := by
  rw [h.reads.tokens_append, constants_append h.2]

end Skipped

/-- An identifier is no keyword. -/
theorem Skipped.name {s : String} {d : Char} {ds : List Char} (hs : isIdentifier s = true)
    (hd : isWordPart d = false) (hds : Skipped (d :: ds)) : Skipped (s.toList ++ d :: ds) := by
  have hne : s ≠ "const" := by
    rintro rfl
    exact absurd hs (by decide +kernel)
  refine (Reads.name hs hd hds.reads).skipped fun hmem => ?_
  rcases List.mem_cons.1 hmem with heq | hmem
  · cases heq
    exact hne rfl
  · exact hds.2 hmem

theorem skipped_quote (s : String) : Skipped (quote s).toList := (reads_quote s).skipped (by simp)

theorem skipped_feed : Skipped ['\n'] := by decide +kernel

theorem skipped_feeds : Skipped ['\n', '\n'] := skipped_feed.append skipped_feed

/-! ## Lines under indentation -/

/-- A line that declares no constant and is not changed by indentation. -/
structure SkippedLine (cs : List Char) : Prop where
  skipped : Skipped cs
  newline : '\n' ∉ cs
  ends : EndsInLine cs

theorem SkippedLine.indented {cs : List Char} (h : SkippedLine cs) : Skipped (indented cs) := by
  obtain ⟨c, hlast, -, hreturn⟩ := h.ends
  obtain ⟨ds, rfl⟩ := List.getLast?_eq_some_iff.1 hlast
  have htab : Skipped ['\t'] := by decide +kernel
  rw [indented_line h.newline, indentedLine_concat hreturn]
  exact htab.append h.skipped

/-- Lines one below the other. -/
theorem SkippedLine.intercalate {α : Type} {source : α → List Char} {as : List α} (hne : as ≠ [])
    (h : ∀ a ∈ as, SkippedLine (source a)) :
    Skipped (Text.indented (List.intercalate ['\n'] (as.map source))) ∧
      EndsInLine (List.intercalate ['\n'] (as.map source)) := by
  refine ⟨?_, EndsInLine.intercalate hne fun a ha => (h a ha).ends⟩
  rw [indented_intercalate indented_feed, List.map_map]
  exact skipped_feed.intercalate fun a ha => (h a ha).indented

/-! ## Imports -/

namespace ImportSet

variable {s : ImportSet}

/-- The lines of an import declaration are the imports in one group or two. -/
theorem exists_specs (h : s.imports ≠ []) :
    ∃ groups : List (List Import), groups ≠ [] ∧ (∀ g ∈ groups, g ≠ [] ∧ g ⊆ s.imports) ∧
      s.specs = String.intercalate "\n\n"
        (groups.map fun g => String.intercalate "\n" (g.map Import.spec)) := by
  refine ⟨[(s.imports.partition Import.isStandard).1,
    (s.imports.partition Import.isStandard).2].filter fun g => !g.isEmpty, ?_, ?_, rfl⟩
  · -- An import that is not in the first group is in the second.
    obtain ⟨i, hi⟩ := List.exists_mem_of_ne_nil _ h
    have hgroup : ∃ g ∈ [(s.imports.partition Import.isStandard).1,
        (s.imports.partition Import.isStandard).2], i ∈ g := by
      rw [List.partition_eq_filter_filter]
      by_cases hstandard : i.isStandard = true
      · exact ⟨_, List.mem_cons_self, List.mem_filter.2 ⟨hi, hstandard⟩⟩
      · exact ⟨_, List.mem_cons_of_mem _ List.mem_cons_self,
          List.mem_filter.2 ⟨hi, by simpa using hstandard⟩⟩
    obtain ⟨g, hg, hig⟩ := hgroup
    exact List.ne_nil_of_mem (List.mem_filter.2 ⟨hg, by simpa using List.ne_nil_of_mem hig⟩)
  · intro g hg
    obtain ⟨hg, hne⟩ := List.mem_filter.1 hg
    refine ⟨by simpa using hne, ?_⟩
    rw [List.partition_eq_filter_filter] at hg
    simp only [List.mem_cons, List.not_mem_nil, or_false] at hg
    rcases hg with rfl | rfl
    · exact List.filter_sublist.subset
    · exact List.filter_sublist.subset

theorem block_of_one_lt (h : 1 < s.imports.length) :
    s.block = "import (\n" ++ indent 1 s.specs ++ "\n)" := by
  unfold block
  split
  · simp_all
  · simp_all
  · rfl

theorem skipped_specs (hne : s.imports ≠ []) (h : ∀ i ∈ s.imports, SkippedLine i.spec.toList) :
    Skipped (indented s.specs.toList) ∧ EndsInLine s.specs.toList := by
  obtain ⟨groups, hsome, hgroups, hspecs⟩ := exists_specs hne
  have htext : s.specs.toList = List.intercalate ['\n', '\n']
      (groups.map fun g => List.intercalate ['\n'] (g.map fun i => i.spec.toList)) := by
    rw [hspecs, String.toList_intercalate]
    simp [String.toList_intercalate, Function.comp_def]
  have hlines : ∀ g ∈ groups,
      Skipped (indented (List.intercalate ['\n'] (g.map fun i => i.spec.toList))) ∧
        EndsInLine (List.intercalate ['\n'] (g.map fun i => i.spec.toList)) := by
    intro g hg
    obtain ⟨hgne, hsub⟩ := hgroups g hg
    exact SkippedLine.intercalate hgne fun i hi => h i (hsub hi)
  rw [htext]
  constructor
  · rw [indented_intercalate indented_feeds, List.map_map]
    exact skipped_feeds.intercalate fun g hg => (hlines g hg).1
  · exact EndsInLine.intercalate hsome fun g hg => (hlines g hg).2

theorem skipped_block (hne : s.imports ≠ []) (h : ∀ i ∈ s.imports, SkippedLine i.spec.toList) :
    Skipped s.block.toList := by
  by_cases hlength : 1 < s.imports.length
  · obtain ⟨hspecs, hends⟩ := skipped_specs hne h
    have hopen : Skipped "import (\n".toList := by decide +kernel
    have hclose : Skipped "\n)".toList := by decide +kernel
    rw [block_of_one_lt hlength, String.toList_append, String.toList_append, toList_indent hends]
    exact (hopen.append hspecs).append hclose
  · obtain ⟨i, hi⟩ : ∃ i, s.imports = [i] := by
      have hpos := List.length_pos_of_ne_nil hne
      exact List.length_eq_one_iff.1 (by omega)
    have hword : Skipped "import ".toList := by decide +kernel
    rw [block, hi, String.toList_append]
    exact hword.append (h i (by simp [hi])).skipped

end ImportSet

/-! ## Sections of a file -/

/-- A section stands behind those before it, each with its separator. -/
theorem exists_toList_intercalate (separator : String) (before : List String) (s : String)
    (after : List String) :
    ∃ tail, (String.intercalate separator (before ++ s :: after)).toList =
      (before.flatMap fun t => t.toList ++ separator.toList) ++ (s.toList ++ tail) := by
  induction before with
  | nil =>
      cases after with
      | nil => exact ⟨[], by simp⟩
      | cons t after => exact ⟨separator.toList ++ _, by simp [String.intercalate_cons_cons]; rfl⟩
  | cons t before ih =>
      obtain ⟨tail, htail⟩ := ih
      refine ⟨tail, ?_⟩
      rw [List.cons_append, String.intercalate_cons_of_ne_nil (by simp), String.toList_append,
        String.toList_append, htail, List.flatMap_cons]
      simp only [List.append_assoc]

/-- The text of a constant in a source, if it can be read. -/
def readConstant? (source name : String) : Option String :=
  (constants false (tokens source.toList)).lookup name

theorem lookup_of_nodup {α : Type} {key value : α → String} {as : List α}
    (h : (as.map key).Nodup) {a : α} (ha : a ∈ as) (rest : List (String × String)) :
    (as.map (fun b => (key b, value b)) ++ rest).lookup (key a) = some (value a) := by
  induction as with
  | nil => cases ha
  | cons b as ih =>
      obtain ⟨hb, has⟩ := List.nodup_cons.1 h
      rw [List.map_cons, List.cons_append, List.lookup_cons]
      rcases List.mem_cons.1 ha with rfl | ha
      · simp
      · have hne : key a ≠ key b := by
          intro heq
          exact hb (heq ▸ List.mem_map_of_mem ha)
        rw [beq_eq_false_iff_ne.2 hne]
        exact ih has ha

namespace SourceFile

variable {f : SourceFile}

/-- The constants come behind the header, the package clause, the imports and the variables. -/
theorem exists_sections (hheader : f.header ≠ []) (hconsts : Value.group "const" f.consts ≠ "") :
    ∃ after, f.sections = ([f.headerText, "package " ++ f.package] ++
      [f.importSet.block, Value.group "var" f.vars].filter fun s => !s.isEmpty) ++
        Value.group "const" f.consts :: after := by
  have hoptional : f.optionalSections =
      ([f.importSet.block, Value.group "var" f.vars].filter fun s => !s.isEmpty) ++
        [Value.group "const" f.consts] := by
    have hsplit : [f.importSet.block, Value.group "var" f.vars, Value.group "const" f.consts] =
        [f.importSet.block, Value.group "var" f.vars] ++ [Value.group "const" f.consts] := rfl
    rw [optionalSections, hsplit, List.filter_append]
    simp [hconsts]
  refine ⟨f.structs.map Struct.render ++ f.funcs.map Func.render ++ f.initSection, ?_⟩
  rw [sections, hoptional]
  simp [hheader]

theorem skipped_header (hheader : f.header = [generatedMarker]) :
    Skipped (f.headerText.toList ++ "\n\n".toList) := by
  have htext : f.headerText = "// " ++ generatedMarker := by
    rw [headerText, hheader]
    rfl
  rw [htext]
  decide +kernel

theorem skipped_package (hpackage : isIdentifier f.package = true) :
    Skipped (("package " ++ f.package).toList ++ "\n\n".toList) := by
  have hword : Skipped "package ".toList := by decide +kernel
  rw [String.toList_append, List.append_assoc]
  exact hword.append (Skipped.name hpackage (by decide) skipped_feeds)

/-- If the sections before the constants declare none, every constant is found, and its text is the
one that was written exactly if it is preserved. -/
theorem readConstant?_render {cs : List (String × String)} (hheader : f.header = [generatedMarker])
    (hpackage : isIdentifier f.package = true)
    (himports : ∀ i ∈ f.importSet.imports, SkippedLine i.spec.toList)
    (hvars : Skipped (Value.group "var" f.vars).toList) (hconsts : f.consts = cs.map textConst)
    (hnames : ∀ c ∈ cs, isIdentifier c.1 = true) (hnodup : (cs.map Prod.fst).Nodup)
    {c : String × String} (hc : c ∈ cs) :
    readConstant? f.render c.1 = some c.2 ↔ Preserved (1 < cs.length) c.2 := by
  obtain ⟨value, ts, hreads, hread, hsame⟩ := exists_reads_group (List.ne_nil_of_mem hc) hnames
  have hgroup : Value.group "const" f.consts ≠ "" := by
    -- From no text no constant could be read.
    intro hempty
    rw [← hconsts, hempty] at hreads
    have hnone : ts = [] := (congrArg Prod.fst hreads).symm
    have hnil := hread []
    rw [hnone, List.append_nil] at hnil
    simp only [constants, List.append_nil] at hnil
    exact List.ne_nil_of_mem hc (List.map_eq_nil_iff.1 hnil.symm)
  obtain ⟨after, hsections⟩ := exists_sections (by simp [hheader]) hgroup
  obtain ⟨tail, htail⟩ := exists_toList_intercalate "\n\n"
    ([f.headerText, "package " ++ f.package] ++
      [f.importSet.block, Value.group "var" f.vars].filter fun s => !s.isEmpty)
    (Value.group "const" f.consts) after
  have hbefore : ∀ s ∈ [f.headerText, "package " ++ f.package] ++
      [f.importSet.block, Value.group "var" f.vars].filter fun s => !s.isEmpty,
      Skipped (s.toList ++ "\n\n".toList) := by
    intro s hs
    simp only [List.mem_append, List.mem_cons, List.not_mem_nil, or_false, List.mem_filter] at hs
    rcases hs with (rfl | rfl) | ⟨rfl | rfl, hne⟩
    · exact skipped_header hheader
    · exact skipped_package hpackage
    · -- Without imports there would be no section for them.
      refine (ImportSet.skipped_block ?_ himports).append skipped_feeds
      intro hnone
      simp [ImportSet.block, hnone] at hne
    · exact hvars.append skipped_feeds
  have hconstants : constants false (tokens f.render.toList) =
      cs.map (fun c => (c.1, value c)) ++ constants false (tokens (tail ++ "\n".toList)) := by
    rw [render, hsections, String.toList_append, htail, List.append_assoc,
      (Skipped.flatMap hbefore).constants_tokens, hconsts, List.append_assoc, hreads.tokens_append,
      hread]
  rw [readConstant?, hconstants, lookup_of_nodup hnodup hc, Option.some.injEq]
  exact hsame c hc

end SourceFile

end DataAccess.Go

namespace DataAccess.Generation

open Go (Element Preserved SkippedLine Skipped SourceFile Value isIdentifier readConstant?)
open Sql (Dialect Statement)
open Text (EndsInLine endsInLine_concat toList_indent)
open Validation

/-! ## What stands before the constants of a model -/

theorem spec_unitImports : ∀ i ∈ unitImports, i.spec = Go.quote i.path := by decide +kernel

theorem skippedLine_unitImports : ∀ i ∈ unitImports, SkippedLine i.spec.toList := by
  intro i hi
  rw [spec_unitImports i hi]
  exact ⟨Go.skipped_quote _, (Go.not_mem_quote _).1, Go.endsInLine_quote _⟩

/-- The line of a statement in the list of its model. -/
theorem skippedLine_entry {s : Statement} (h : isIdentifier (queryName s.name) = true) :
    SkippedLine ((statementEntry s).render ++ ",").toList := by
  have htext : ((statementEntry s).render ++ ",").toList =
      ['\x7b'] ++ ((Go.quote s.name).toList ++ ([',', ' '] ++
        ((queryName s.name).toList ++ ['\x7d', ',']))) := by
    have hrender : (statementEntry s).render = "" ++
        ("\x7b" ++ String.intercalate ", " [Go.quote s.name, queryName s.name] ++ "\x7d") := rfl
    rw [hrender]
    simp [String.intercalate_cons_cons]
  have hopen : Skipped ['\x7b'] := by decide +kernel
  have hcomma : Skipped [',', ' '] := by decide +kernel
  have hclose : Skipped ['\x7d', ','] := by decide +kernel
  have hname := Skipped.name h (by decide) hclose
  rw [htext]
  constructor
  · exact hopen.append ((Go.skipped_quote s.name).append (hcomma.append hname))
  · simp [(Go.not_mem_quote s.name).1, Go.newline_not_mem_of_isIdentifier h]
  · refine EndsInLine.append (EndsInLine.append (EndsInLine.append (EndsInLine.append ?_ _) _) _) _
    exact endsInLine_concat (by decide) (by decide) ['\x7d']

/-- The list of a model's statements, one line for each. -/
theorem toList_statementsVar (goName : String) {statements : List Statement} (hne : statements ≠ [])
    (hends : EndsInLine (List.intercalate ['\n']
      (statements.map fun s => ((statementEntry s).render ++ ",").toList))) :
    (Value.group "var" [statementsVar goName statements]).toList =
      "var ".toList ++ (((statementsName goName).toList ++ " = [][2]string\x7b\n".toList) ++
        (Text.indented (List.intercalate ['\n']
          (statements.map fun s => ((statementEntry s).render ++ ",").toList)) ++
          "\n\x7d".toList)) := by
  have hgroup : Value.group "var" [statementsVar goName statements] =
      "" ++ "var" ++ " " ++ (statementsName goName ++ "" ++ " = " ++ ("[][2]string" ++
        Go.compositeBody true (Element.renders (statements.map statementEntry)))) := rfl
  have hbody : Go.compositeBody true (Element.renders (statements.map statementEntry)) =
      "\x7b\n" ++ Text.indent 1 (String.intercalate "\n"
        ((Element.renders (statements.map statementEntry)).map (· ++ ","))) ++ "\n\x7d" := by
    rw [Go.compositeBody, if_neg (by simp [Element.renders_eq_map, hne]), if_pos rfl, Go.braced]
  have hlines : (String.intercalate "\n" ((Element.renders (statements.map statementEntry)).map
      (· ++ ","))).toList = List.intercalate ['\n']
        (statements.map fun s => ((statementEntry s).render ++ ",").toList) := by
    rw [String.toList_intercalate, Element.renders_eq_map]
    simp [Function.comp_def]
  rw [← hlines] at hends ⊢
  rw [hgroup, hbody, ← toList_indent hends]
  simp

theorem skipped_statementsVar {goName : String} {statements : List Statement}
    (hname : isIdentifier (statementsName goName) = true) (hne : statements ≠ [])
    (hnames : ∀ s ∈ statements, isIdentifier (queryName s.name) = true) :
    Skipped (Value.group "var" [statementsVar goName statements]).toList := by
  obtain ⟨hlines, hends⟩ := SkippedLine.intercalate hne fun s hs => skippedLine_entry (hnames s hs)
  have hvar : Skipped "var ".toList := by decide +kernel
  have hopen : Skipped " = [][2]string\x7b\n".toList := by decide +kernel
  have hclose : Skipped "\n\x7d".toList := by decide +kernel
  rw [toList_statementsVar goName hne hends]
  exact hvar.append ((Skipped.name hname (by decide) hopen).append (hlines.append hclose))

/-! ## The constants of a model -/

section Units

variable {d : Dialect} {r : Resolved} {u : ModelUnit} {package : String}

/-- What is known of a unit in an accepted run. -/
structure Accepted (d : Dialect) (package : String) (r : Resolved) (u : ModelUnit) : Prop where
  unit : modelUnit d r = .ok u
  name : isIdentifier (Go.exported r.name) = true
  nodup : (u.sourceFile package).declares.Nodup

theorem exists_accepted {models : List Model} {registry : Registry} {resolved : List Resolved}
    (h : validate models registry = .ok resolved) (d : Dialect) (package : String) :
    ∃ units, resolved.mapM (modelUnit d) = .ok units ∧
      List.Forall₂ (Accepted d package) resolved units := by
  obtain ⟨hwell, -⟩ := validate_eq_ok_iff.1 h
  obtain ⟨-, -, hresolved⟩ := validate_ok h
  obtain ⟨units, support, hunits, -, hnodup⟩ := exists_units_nodup h d package
  have hfiles : ∀ u ∈ units, (u.sourceFile package).declares.Nodup :=
    fun u hu => (List.nodup_flatMap.1 hnodup).1 _ (mem_sourceFiles hu support)
  have hstructs : ∀ m' ∈ resolved, isIdentifier (Go.exported m'.name) = true := by
    intro m' hm'
    obtain ⟨m, hm, hmodel⟩ := exists_of_mem_right hresolved hm'
    rw [(resolveModel_ok hmodel).1]
    exact hwell.structs m hm
  have hboth := (List.forall₂_and_left _ _).2 ⟨hfiles, (mapM_eq_ok.1 hunits).flip⟩
  have hall := (List.forall₂_and_left _ _).2 ⟨hstructs, hboth.flip⟩
  exact ⟨units, hunits, hall.imp fun m' u hu => ⟨hu.2.2, hu.1, hu.2.1⟩⟩

/-- In the file of a model the SQL of a method is read back exactly if it is preserved. -/
theorem Accepted.readConstant?_iff (hu : Accepted d package r u)
    (hpackage : isIdentifier package = true)
    (hnames : ∀ q ∈ r.model.access.methods, isIdentifier (queryName q.name) = true) {q : Method}
    (hq : q ∈ r.model.access.methods) :
    readConstant? (u.sourceFile package).render (queryName q.name) =
        some (Sql.compileMethod d r.model q).sql ↔
      Preserved (1 < r.model.access.methods.length) (Sql.compileMethod d r.model q).sql := by
  have hstatement : Sql.compileMethod d r.model q ∈ Sql.compileModel d r.model :=
    List.mem_map_of_mem hq
  have hqueries : ∀ s ∈ Sql.compileModel d r.model, isIdentifier (queryName s.name) = true := by
    intro s hs
    obtain ⟨q', hq', rfl⟩ := List.mem_map.1 hs
    exact hnames q' hq'
  have hvars : Skipped (Value.group "var" u.vars).toList := by
    have hlist : isIdentifier (statementsName u.goName) = true := by
      rw [goName_modelUnit hu.unit]
      exact (Go.isIdentifier_camel_iff hu.name isSuffix_statements).2
        (Go.camelSafe_exported hu.name)
    rw [(exists_prepare hu.unit hq).1]
    exact skipped_statementsVar hlist (List.ne_nil_of_mem hstatement) hqueries
  have himports : ∀ i ∈ (u.sourceFile package).importSet.imports, SkippedLine i.spec.toList :=
    fun i hi => skippedLine_unitImports i
      (imports_modelUnit hu.unit package (Go.ImportSet.ofList_subset _ hi))
  -- Every constant is given by its name and its text.
  have hconsts : (u.sourceFile package).consts =
      ((Sql.compileModel d r.model).map fun s => (queryName s.name, s.sql)).map Go.textConst := by
    rw [List.map_map]
    exact (modelUnit_embeds hu.unit).constants
  have hdiffer : (((Sql.compileModel d r.model).map fun s => (queryName s.name, s.sql)).map
      Prod.fst).Nodup := by
    have hdeclared : ((u.sourceFile package).consts.map Value.name).Nodup :=
      (List.sublist_append_right _ _).nodup hu.nodup
    rw [hconsts, List.map_map] at hdeclared
    exact hdeclared
  have hread := SourceFile.readConstant?_render (f := u.sourceFile package) rfl hpackage himports
    hvars hconsts (by simpa using hqueries) hdiffer (List.mem_map_of_mem hstatement)
  rwa [List.length_map, Compiler.length_compileModel] at hread

end Units

/-- **SQL in Go source.** In an accepted run a constant whose name Go allows is read back from the
file of its model. Its text is the SQL of its method exactly if that has a back quote, or else no
carriage return and, unless the method is the only one of its model, no line feed. -/
theorem query_constant_read_iff {models : List Model} {r : Registry} {resolved : List Resolved}
    (h : validate models r = .ok resolved) (d : Dialect) {package : String}
    (hpackage : isIdentifier package = true) :
    ∃ units, resolved.mapM (modelUnit d) = .ok units ∧
      List.Forall₂ (fun m' u =>
        (∀ q ∈ m'.model.access.methods, isIdentifier (queryName q.name) = true) →
          ∀ q ∈ m'.model.access.methods,
            (readConstant? (u.sourceFile package).render (queryName q.name) =
                some (Sql.compileMethod d m'.model q).sql ↔
              Preserved (1 < m'.model.access.methods.length)
                (Sql.compileMethod d m'.model q).sql)) resolved units := by
  obtain ⟨units, hunits, haccepted⟩ := exists_accepted h d package
  refine ⟨units, hunits, haccepted.imp fun m' u hu hnames q hq => ?_⟩
  exact hu.readConstant?_iff hpackage hnames hq

/-- Three models whose schemas have line ends in their names. -/
def lineEndModels : List Model :=
  [{ name := "a", schema := some "x\ry", access := { delete := [{ name := "Clear" }] } },
   { name := "b", schema := some "x\ny", access := { delete := [{ name := "Drop" }] } },
   { name := "c", schema := some "x\ny",
     access := { delete := [{ name := "Purge" }, { name := "Wipe" }] } }]

theorem lineEndModels_accepted :
    ∃ resolved, validate lineEndModels {} = .ok resolved ∧ ∀ m' ∈ resolved,
      (∀ q ∈ m'.model.access.methods, isIdentifier (queryName q.name) = true) ∧
        ∀ q ∈ m'.model.access.methods, (Preserved (1 < m'.model.access.methods.length)
          (Sql.compileMethod .postgres m'.model q).sql ↔ m'.name = "b") := by
  have hall : (validate lineEndModels {}).toOption.any (fun resolved => resolved.all fun m' =>
      m'.model.access.methods.all (fun q => isIdentifier (queryName q.name)) &&
        m'.model.access.methods.all fun q => decide (Preserved
          (1 < m'.model.access.methods.length) (Sql.compileMethod .postgres m'.model q).sql ↔
            m'.name = "b")) = true := by
    decide +kernel
  cases h : validate lineEndModels {} with
  | error e => rw [h] at hall; cases hall
  | ok resolved =>
      rw [h] at hall
      simpa [Except.toOption] using hall

theorem lineEndModels_read_iff :
    ∃ resolved, validate lineEndModels {} = .ok resolved ∧ isIdentifier "dal" = true ∧
      (∀ m' ∈ resolved, ∀ q ∈ m'.model.access.methods, isIdentifier (queryName q.name) = true) ∧
      ∃ units, resolved.mapM (modelUnit .postgres) = .ok units ∧
        List.Forall₂ (fun m' u =>
          (∀ q ∈ m'.model.access.methods, isIdentifier (queryName q.name) = true) →
            ∀ q ∈ m'.model.access.methods,
              (readConstant? (u.sourceFile "dal").render (queryName q.name) =
                  some (Sql.compileMethod .postgres m'.model q).sql ↔
                Preserved (1 < m'.model.access.methods.length)
                  (Sql.compileMethod .postgres m'.model q).sql)) resolved units := by
  have hpackage : isIdentifier "dal" = true := by decide +kernel
  obtain ⟨resolved, h, hmodels⟩ := lineEndModels_accepted
  exact ⟨resolved, h, hpackage, fun m' hm' => (hmodels m' hm').1,
    query_constant_read_iff h .postgres hpackage⟩

/-- Of the four constants, only the one of `b` is read back. -/
theorem lineEndModels_not_read :
    ∃ resolved units, validate lineEndModels {} = .ok resolved ∧
      resolved.mapM (modelUnit .postgres) = .ok units ∧
      List.Forall₂ (fun m' u => ∀ q ∈ m'.model.access.methods,
        (readConstant? (u.sourceFile "dal").render (queryName q.name) =
          some (Sql.compileMethod .postgres m'.model q).sql ↔ m'.name = "b")) resolved units := by
  obtain ⟨resolved, h, hmodels⟩ := lineEndModels_accepted
  obtain ⟨units, hunits, haccepted⟩ := exists_accepted h .postgres "dal"
  have hpairs := (List.forall₂_and_left _ _).2 ⟨hmodels, haccepted⟩
  refine ⟨resolved, units, h, hunits, hpairs.imp fun m' u hu q hq => ?_⟩
  rw [hu.2.readConstant?_iff (by decide +kernel) hu.1.1 hq]
  exact hu.1.2 q hq

end DataAccess.Generation
