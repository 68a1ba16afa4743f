import Refit.Proofs.Adapter.Faulty
import Refit.Proofs.Naming.Words
import Refit.Proofs.Route.Upright
import Refit.Proofs.Run.Accounting

/-!
Where the files of an output stand. Every file that is asked for stands below the output in a region for
its kind. The names on the way are those of the project, so they do not climb; only the route of a page
can bring in double dots, and where it does they go back over parts of the same route.
-/

open List

namespace Refit

open Path

variable {component : Component} {file : String}

namespace Output

variable {name : String}

/-- A name that leads one step down. -/
def Leads (name : String) : Prop := Path.ValidName name ∧ name ≠ ".."

instance (name : String) : Decidable (Leads name) := inferInstanceAs (Decidable (_ ∧ _))

theorem leads_of_mem {name : String} {c : Char} (clear : '/' ∉ name.toList) (member : c ∈ name.toList)
    (other : c ≠ '.') : Leads name := by
  refine ⟨⟨?_, ?_, clear⟩, ?_⟩ <;> rintro rfl <;> simp [other] at member

theorem leads_markup (clear : '/' ∉ name.toList) (typed : Bool) :
    Leads (name ++ markupExtension typed) := by
  cases typed <;> exact @leads_of_mem _ 'x' (by simp [markupExtension, clear]) (by simp [markupExtension]) (by decide)

theorem leads_script (clear : '/' ∉ name.toList) (typed : Bool) :
    Leads (name ++ scriptExtension typed) := by
  cases typed <;> exact @leads_of_mem _ 's' (by simp [scriptExtension, clear]) (by simp [scriptExtension]) (by decide)

theorem steps_leading {text : String} (leads : Leads text) : steps [text] = [text] := by
  simp [steps, leads.1.1, leads.1.2.1]

theorem steps_append (first second : List String) : steps (first ++ second) = steps first ++ steps second :=
  filter_append first second

/-- Where a file that is made for the project stands below the output. -/
structure Spot (clear : Prop) (names : List String) : Prop where
  region : Region names
  valid : ∀ name ∈ names, Path.ValidName name
  upright : clear → Upright names.dropLast ∧ ∀ name ∈ names.getLast?, name ≠ ".."

variable {clear : Prop}

theorem Spot.of_leads {names : List String} (region : Region names) (leads : ∀ name ∈ names, Leads name) :
    Spot clear names where
  region := region
  valid name member := (leads name member).1
  upright _ := ⟨.of_plain (fun member => (leads _ (dropLast_subset _ member)).2 rfl),
    fun name last => (leads name (mem_of_getLast? last)).2⟩

theorem spot_of_area {area rest : List String} (member : area ∈ areas) (down : ∀ name ∈ rest, Leads name) :
    Spot clear (area ++ rest) := by
  have own : ∀ area ∈ areas, ∀ name ∈ area, Leads name := by decide
  exact .of_leads (.area member rest) (forall_mem_append.2 ⟨own area member, down⟩)

theorem nesting_leads (descends : Path.Descends component.path) (analysis : Analysis) :
    ∀ name ∈ nesting component analysis, Leads name := by
  have valid := ofString_valid component.path
  obtain ⟨names, read, plain⟩ := descends
  unfold nesting
  cases below : (ofString component.path).parent.relativeTo? (ofString analysis.layout.componentsDir) with
  | none => simp
  | some inner =>
    intro name member
    have inParent : name ∈ (ofString component.path).parent.names := by
      rw [← below_relativeTo? below]
      exact mem_append_right _ member
    have inPath : name ∈ (ofString component.path).names := dropLast_subset _ inParent
    refine ⟨valid name inPath, ?_⟩
    rintro rfl
    rw [read] at inPath
    exact plain inPath

theorem componentPath_below (root : Path) (clear : '/' ∉ component.name.toList)
    (descends : Path.Descends component.path) (analysis : Analysis) (options : Options) :
    ∃ area ∈ areas, ∃ nest name, componentPath root component analysis options = root.below (area ++ nest ++ [name]) ∧
      (∀ other ∈ nest, Leads other) ∧ Leads name := by
  have markup := leads_markup clear (isTyped analysis options)
  have script := leads_script clear (isTyped analysis options)
  have single (base : Path) : under base [component.name ++ markupExtension (isTyped analysis options)] =
      base.below [component.name ++ markupExtension (isTyped analysis options)] := by
    rw [under_clear (by simpa using markup.1.2.2), steps_leading markup]
  have directory : under root ["src", "components"] = root.below ["src", "components"] := under_clear (by decide) root
  unfold componentPath
  dsimp only
  rw [single, directory]
  split
  · refine ⟨["src", "hooks"], by decide, [], component.name ++ scriptExtension (isTyped analysis options), ?_,
      by simp, script⟩
    have texts : ∀ text ∈ ["src", "hooks"] ++ [component.name ++ scriptExtension (isTyped analysis options)],
        '/' ∉ text.toList := forall_mem_append.2 ⟨by decide, by simpa using script.1.2.2⟩
    have places := under_clear texts root
    rw [steps_append, steps_leading script] at places
    exact places
  · split
    · exact ⟨["src", "components"], by decide, nesting component analysis, _,
        by rw [below_below, below_below, append_assoc], nesting_leads descends analysis, markup⟩
    · exact ⟨["src", "components"], by decide, [], _, below_below _ _ _, by simp, markup⟩

theorem infix_of_occursIn {part text : List Char} (occurs : Text.occursIn part text = true) : part <:+: text := by
  induction text with
  | nil =>
    obtain rfl : part = [] := by simpa [Text.occursIn] using occurs
    exact infix_rfl
  | cons c rest ih =>
    rcases Bool.or_eq_true_iff.1 occurs with here | later
    · exact isPrefixOf_iff_prefix.1 here |>.isInfix
    · exact (ih later).trans (suffix_cons c rest).isInfix

theorem mem_afterDot {before rest : List Char} {c : Char} (chars : name.toList = before ++ '.' :: rest)
    (member : c ∈ rest) : c ∈ (afterDot name).toList := by
  rw [afterDot, chars]
  clear chars
  induction before with
  | nil => simpa using member
  | cons d others ih =>
    by_cases dot : d = '.'
    · simp [dot, member]
    · rw [cons_append, dropWhile_cons_of_pos (by simpa using dot)]
      exact ih

theorem mem_afterDot_of_mark (marked : FileKind.hasMark name = true) : 's' ∈ (afterDot name).toList := by
  obtain ⟨mark, member, occurs⟩ := any_eq_true.1 marked
  obtain ⟨before, after, chars⟩ := infix_of_occursIn occurs
  have shape : ∀ mark ∈ FileKind.companionMarks, mark.toList.head? = some '.' ∧ 's' ∈ mark.toList.tail := by decide
  obtain ⟨dotted, tells⟩ := shape mark member
  cases letters : mark.toList with
  | nil => simp [letters] at dotted
  | cons c rest =>
    obtain rfl : c = '.' := by simpa [letters] using dotted
    rw [letters] at tells chars
    have whole : name.toList = before ++ '.' :: (rest ++ after) := chars.symm.trans (by simp)
    exact mem_afterDot whole (mem_append_left after tells)

theorem clear_afterDot (clear : '/' ∉ name.toList) : '/' ∉ (afterDot name).toList := by
  intro slash
  rw [afterDot, String.toList_ofList] at slash
  exact clear ((dropWhile_sublist _).subset (drop_subset _ _ slash))

def beside (component : Path) (companion : String) : String :=
  component.stem ++ "." ++ if FileKind.hasMark (ofString companion).name then
    afterDot (ofString companion).name else "test." ++ afterDot (ofString companion).name

theorem leads_beside {component : Path} (clear : '/' ∉ component.name.toList) (companion : String) :
    Leads (beside component companion) := by
  have stem := clear_stem clear
  have ending := clear_afterDot (clear_name (ofString_valid companion))
  unfold beside
  split
  · next marked =>
      exact @leads_of_mem _ 's' (by simp [stem, ending]) (by simp [mem_afterDot_of_mark marked]) (by decide)
  · exact @leads_of_mem _ 's' (by simp [stem, ending]) (by simp) (by decide)

theorem companionPath_eq {component : Path} (clear : '/' ∉ component.name.toList) (companion : String) :
    companionPath component companion = component.parent.below [beside component companion] := by
  have leads := leads_beside clear companion
  have clearName : ∀ text ∈ [beside component companion], '/' ∉ text.toList := by simpa using leads.1.2.2
  have placed := under_clear clearName component.parent
  rwa [steps_leading leads] at placed

theorem companionPath_below {root : Path} {above : List String} {name : String} (valid : Path.ValidName name)
    (companion : String) :
    ∃ beside, companionPath (root.below (above ++ [name])) companion = root.below (above ++ [beside]) ∧ Leads beside := by
  have some : above ++ [name] ≠ [] := by simp
  have clear : '/' ∉ (root.below (above ++ [name])).name.toList := by
    rw [name_below some]
    simpa using valid.2.2
  refine ⟨_, ?_, leads_beside clear companion⟩
  rw [companionPath_eq clear, parent_below some, dropLast_concat, below_below]

theorem clear_pascal (name : String) : '/' ∉ (Naming.pascal name).toList := by
  rw [Naming.pascal, String.toList_ofList]
  exact fun slash => absurd (Naming.pascalChars_alphanum _ _ slash) (by decide)

theorem clear_routeFile {segment : String} (clear : '/' ∉ segment.toList) : '/' ∉ (routeFile segment).toList := by
  unfold routeFile
  split
  · decide
  · next name chars =>
      rw [chars, mem_cons, not_or] at clear
      split
      · have shorter : '/' ∉ name.dropLast := fun member => clear.2 (dropLast_subset _ member)
        simp [shorter]
      · simp [clear.2]
  · exact clear

theorem clear_routeSegments (route : String) : ∀ segment ∈ (routeSegments route).map routeFile, '/' ∉ segment.toList := by
  intro segment member
  obtain ⟨piece, inSegments, rfl⟩ := mem_map.1 member
  obtain ⟨chars, inPieces, rfl⟩ := mem_map.1 (mem_filter.1 inSegments).1
  refine clear_routeFile (fun slash => ?_)
  simpa using Text.no_separator_of_mem_splitChars inPieces '/' (by simpa using slash)

theorem upright_dropLast {segments : List String} (upright : Upright (steps segments)) :
    Upright (steps segments.dropLast) := by
  rcases eq_nil_or_concat segments with rfl | ⟨earlier, last, rfl⟩
  · exact .nil
  · rw [concat_eq_append, dropLast_concat]
    rw [concat_eq_append, steps_append] at upright
    have few : steps [last] = [] ∨ steps [last] = [last] := by
      simp only [steps, filter_cons]
      split <;> simp
    rcases few with none | single
    · rwa [none, append_nil] at upright
    · rw [single] at upright
      simpa using upright.dropLast

/-- A page stands in an area; only its route can have double dots. -/
theorem pagePath_below (root : Path) {page : Page} (routed : page.Routed) (analysis : Analysis) (options : Options) :
    ∃ names, pagePath root page analysis options = root.below names ∧
      Spot (options.platform = .nextjs → '\\' ∉ page.path.toList) names := by
  unfold pagePath
  split
  · next nextjs =>
      have clear := clear_routeSegments page.route
      generalize same : (routeSegments page.route).map routeFile = segments at clear
      have leaf : '/' ∉ (segments.getLast?.getD "index").toList := by
        cases last : segments.getLast? with
        | none => decide
        | some segment => exact clear segment (mem_of_getLast? last)
      have ending := leads_markup leaf (isTyped analysis options)
      have texts : ∀ text ∈ "pages" :: segments.dropLast ++
          [segments.getLast?.getD "index" ++ markupExtension (isTyped analysis options)], '/' ∉ text.toList := by
        refine forall_mem_append.2 ⟨forall_mem_cons.2 ⟨by decide, ?_⟩, by simpa using ending.1.2.2⟩
        exact fun text member => clear text (dropLast_subset _ member)
      have names : steps ("pages" :: segments.dropLast ++
          [segments.getLast?.getD "index" ++ markupExtension (isTyped analysis options)]) =
          ["pages"] ++ (steps segments.dropLast ++
            [segments.getLast?.getD "index" ++ markupExtension (isTyped analysis options)]) := by
        rw [steps_append, steps_leading ending]
        rfl
      refine ⟨_, (under_clear texts root).trans (congrArg root.below names), .area (by decide) _, ?_, ?_⟩
      · rw [← names]
        exact steps_valid texts
      · intro plain
        obtain ⟨lowercase, below, route, valid, noDots, kept⟩ := routed
        have upright := Route.route_upright valid noDots (kept (plain nextjs)) lowercase
        rw [← route, same] at upright
        refine ⟨?_, ?_⟩
        · rw [← append_assoc, dropLast_concat]
          exact .down (by decide) (upright_dropLast upright)
        · rw [← append_assoc, List.getLast?_concat]
          simpa using ending.2
  · have identifier : '/' ∉ (pageIdentifier page.name).toList := by
      have pascal := clear_pascal page.name
      unfold pageIdentifier pageBase
      dsimp only
      split
      · decide
      · simp [pascal]
    have leads := leads_markup identifier (isTyped analysis options)
    have texts : ∀ text ∈ ["src", "pages"] ++ [pageIdentifier page.name ++ markupExtension (isTyped analysis options)],
        '/' ∉ text.toList := forall_mem_append.2 ⟨by decide, by simpa using leads.1.2.2⟩
    have places := under_clear texts root
    rw [steps_append, steps_leading leads] at places
    exact ⟨_, places, spot_of_area (by decide) (by simpa using leads)⟩

end Output

/-- A project that an output for a platform with routes of its own can be made of: no page has a backslash
    in its path. -/
def Analysis.Clear (options : Options) (analysis : Analysis) : Prop :=
  options.platform = .nextjs → ∀ page ∈ analysis.pages, '\\' ∉ page.path.toList

open Output

variable {output : Path} {options : Options} {adapter : Adapter} {analysis : Analysis}

theorem companion_spot (named : analysis.Named) (member : component ∈ analysis.components)
    {owner : Path} (given : Names.Offers (componentPath output component analysis options) owner) (companion : String) :
    ∃ names, companionPath owner companion = output.below names ∧ Spot (analysis.Clear options) names := by
  obtain ⟨clear, descends⟩ := named.components component member
  obtain ⟨area, inAreas, nest, name, path, leads, last⟩ := componentPath_below output clear descends analysis options
  have own : ∃ name, owner = output.below (area ++ nest ++ [name]) ∧ Path.ValidName name := by
    rw [path] at given
    have valid : ∀ other ∈ area ++ nest ++ [name], Path.ValidName other := by
      rw [append_assoc]
      exact (@spot_of_area True _ _ inAreas (forall_mem_append.2 ⟨leads, by simpa using last⟩)).valid
    rcases given.cases_below (by simp) valid with rfl | ⟨other, rfl, fine, _⟩
    · exact ⟨name, rfl, last.1⟩
    · exact ⟨other, by rw [dropLast_concat], fine⟩
  obtain ⟨other, rfl, fine⟩ := own
  obtain ⟨beside, path, leadsBeside⟩ := @companionPath_below output (area ++ nest) other fine companion
  refine ⟨_, path, ?_⟩
  rw [append_assoc]
  exact spot_of_area inAreas (forall_mem_append.2 ⟨leads, by simpa using leadsBeside⟩)

theorem style_spot {clear : Prop} {name : String} (leads : '/' ∉ name.toList ∧ name ≠ "..") (output : Path) :
    ∃ names, under output ["src", "styles", name] = output.below names ∧ Spot clear names := by
  have texts : ∀ text ∈ ["src", "styles"] ++ [name], '/' ∉ text.toList :=
    forall_mem_append.2 ⟨by decide, by simpa using leads.1⟩
  have single : ∀ text ∈ [name], '/' ∉ text.toList := by simpa using leads.1
  have places := under_clear texts output
  refine ⟨_, places, @spot_of_area clear ["src", "styles"] (steps [name]) (by decide) (fun other member => ?_)⟩
  refine ⟨steps_valid single other member, ?_⟩
  have same : other = name := by simpa using (mem_filter.1 member).1
  exact same ▸ leads.2

theorem clear_name_of_descends (descends : Path.Descends file) :
    '/' ∉ (ofString file).name.toList ∧ (ofString file).name ≠ ".." := by
  refine ⟨clear_name (ofString_valid file), fun same => ?_⟩
  obtain ⟨names, read, plain⟩ := descends
  rw [read, Path.name] at same
  cases last : names.getLast? with
  | none => simp [last] at same
  | some name =>
    obtain rfl : name = ".." := by simpa [last] using same
    exact plain (mem_of_getLast? last)

theorem Placed.spot (stock : adapter.Stock) {disk : Disk} {source : Path} (grounded : analysis.Grounded disk source)
    (named : analysis.Named) {role : Role} {path : Path}
    (placed : Placed output options adapter analysis role file path) :
    ∃ names, path = output.below names ∧ Spot (analysis.Clear options) names := by
  cases placed with
  | @component component member =>
    obtain ⟨clear, descends⟩ := named.components component member
    obtain ⟨area, inAreas, nest, name, path, leads, last⟩ := componentPath_below output clear descends analysis options
    refine ⟨_, path, ?_⟩
    rw [append_assoc]
    exact spot_of_area inAreas (forall_mem_append.2 ⟨leads, by simpa using last⟩)
  | test member _ given | story member _ given => exact companion_spot named member given file
  | @page page member =>
    obtain ⟨names, path, spot⟩ := pagePath_below output (named.pages page member) analysis options
    exact ⟨names, path, spot.region, spot.valid, fun clear => spot.upright (fun nextjs => clear nextjs page member)⟩
  | style made member =>
    have plain : ∀ name ∈ Adapter.Stock.styleNames, '/' ∉ name.toList ∧ name ≠ ".." := by decide
    exact style_spot (plain file (stock.styles made _ member)) output
  | @carriedStyle disk files carried style made found member =>
    obtain ⟨inFiles, name⟩ := stock.carriedStyles found style member
    obtain ⟨clear, plain⟩ := clear_name_of_descends (named.styles style.source inFiles)
    rcases name with same | same
    · exact style_spot (same ▸ ⟨clear, plain⟩) output
    · have leads : Leads ("legacy-" ++ (ofString style.source).name) :=
        @leads_of_mem _ '-' (by simp [clear]) (by simp) (by decide)
      exact style_spot (same ▸ ⟨leads.1.2.2, leads.2⟩) output
  | @asset asset member =>
    have valid := ofString_valid asset.name
    obtain ⟨_, names, read, plain⟩ := grounded.assets asset member
    rw [read] at valid
    obtain ⟨base, inBases, path⟩ := assetPath_below output analysis.layout.publicDir read
    have areas : ∀ base ∈ [["public"], ["src", "assets"]], base ∈ Output.areas := by decide
    refine ⟨_, path, spot_of_area (areas base inBases) (fun name inNames => ⟨valid name inNames, ?_⟩)⟩
    exact fun same => plain (same ▸ inNames)
  | configuration made member =>
    have known := stock.configuration made _ member
    have all : ∀ name ∈ configurationNames, Leads name := by decide
    have leads := all file known
    refine ⟨[file], ?_, .of_leads (.configuration known) (by simpa using leads)⟩
    rw [under_clear (by simpa using leads.1.2.2), steps_leading leads]

end Refit
