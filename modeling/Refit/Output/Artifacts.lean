import Refit.Fault
import Refit.Output.Place

namespace Refit.Output

def locales : List String := ["nb-NO", "nn-NO", "en-US", "ar-SA", "fr-FR"]

def defaultLocale : String := "nb-NO"

def commonTexts (locale : String) : List (String × String) :=
  match locale with
  | "nb-NO" => [("welcome", "Velkommen"), ("loading", "Laster...")]
  | "nn-NO" => [("welcome", "Velkomen"), ("loading", "Lastar...")]
  | "en-US" => [("welcome", "Welcome"), ("loading", "Loading...")]
  | "ar-SA" => [("welcome", "مرحبا"), ("loading", "جار التحميل...")]
  | _ => [("welcome", "Bienvenue"), ("loading", "Chargement...")]

abbrev Versions := List (String × String)

def require (versions required : Versions) : Versions :=
  required.foldl (fun merged entry => Json.insert merged entry.1 entry.2) versions

def sortedByName {α : Type} (entries : List (String × α)) : List (String × α) :=
  entries.mergeSort (fun left right => left.1 ≤ right.1)

def versionsValue (versions : Versions) : Json.Value :=
  .object (versions.map (fun entry => (entry.1, .string entry.2)))

def requiredPackages (options : Options) : Versions :=
  [("react", "^18.0.0"), ("react-dom", "^18.0.0"), ("@xala-technologies/ui-system", "workspace:*"),
   ("@xala-technologies/foundation", "workspace:*")]
    ++ (if options.platform = .nextjs then [("next", "^14.0.0")]
        else [("react-helmet-async", "^2.0.0"), ("react-router-dom", "^6.0.0")])
    ++ (if options.addLocalization then [("react-i18next", "^13.0.0"), ("i18next", "^23.0.0")] else [])
    ++ (if options.addCompliance then [("@xala-technologies/norwegian-compliance", "workspace:*")] else [])
    ++ (if options.styling = .styledComponents then [("styled-components", "^6.0.0")] else [])

def requiredTools (typed : Bool) (options : Options) : Versions :=
  [("eslint", "^9.0.0"), ("vitest", "^1.0.0")]
    ++ (if typed then
          [("@types/react", "^18.0.0"), ("@types/react-dom", "^18.0.0"), ("@types/node", "^20.0.0"),
           ("typescript", "^5.0.0")]
        else [])
    ++ (if options.styling = .tailwind then
          [("tailwindcss", "^3.0.0"), ("autoprefixer", "^10.0.0"), ("postcss", "^8.0.0")]
        else [])
    ++ (if options.platform = .nextjs then []
        else [("vite", "^5.0.0"), ("@vitejs/plugin-react", "^4.0.0")])

/-- One section of the manifest: what is carried over from the source, under what is required. -/
def carried (source required : Versions) (excluded : List String) : Versions :=
  sortedByName (require (source.filter (fun entry => !excluded.contains entry.1)) required)

def scripts (typed : Bool) (options : Options) : Versions :=
  (if options.platform = .nextjs then
      [("dev", "next dev"), ("build", "next build"), ("start", "next start")]
    else [("dev", "vite"), ("build", "vite build"), ("start", "vite preview")])
    ++ [("lint", "eslint . --max-warnings 0"), ("test", "vitest")]
    ++ (if typed then [("type-check", "tsc --noEmit")] else [])

def projectName (options : Options) (fallback : String) : String :=
  let name := (Path.ofString options.outputPath).name
  if name.isEmpty then fallback else name

def manifest (analysis : Analysis) (options : Options) (description : String) (excluded : List String) :
    Json.Value :=
  let typed := isTyped analysis options
  .object
    [("name", .string (projectName options "migrated-app")),
     ("version", .string "1.0.0"),
     ("private", .bool true),
     ("description", .string description),
     ("scripts", versionsValue (scripts typed options)),
     ("dependencies",
       versionsValue (carried analysis.dependencies (requiredPackages options) excluded)),
     ("devDependencies",
       versionsValue (carried analysis.devDependencies (requiredTools typed options) excluded))]

def strings (texts : List String) : Json.Value := .array (texts.map .string)

def tsconfig (platform : Platform) : Json.Value :=
  let nextjs : Bool := platform = .nextjs
  .object
    [("compilerOptions", .object
       [("target", .string "ES2022"),
        ("lib", strings ["dom", "dom.iterable", "es2022"]),
        ("allowJs", .bool true),
        ("skipLibCheck", .bool true),
        ("strict", .bool true),
        ("noEmit", .bool true),
        ("esModuleInterop", .bool true),
        ("module", .string "esnext"),
        ("moduleResolution", .string "bundler"),
        ("resolveJsonModule", .bool true),
        ("isolatedModules", .bool true),
        ("jsx", .string (if nextjs then "preserve" else "react-jsx")),
        ("baseUrl", .string "."),
        ("paths", .object [("@/*", strings ["./src/*"])])]),
     ("include", strings (if nextjs then ["next-env.d.ts", "**/*.ts", "**/*.tsx"] else ["src"])),
     ("exclude", strings ["node_modules"])]

abbrev Renderer := String → Template.Context → Except Fault String

def rendererOf (library : Template.Library) : Renderer :=
  fun name context => (library.render name context).mapError .template

def configuration (render : Renderer) (analysis : Analysis) (options : Options) :
    Except Fault (List (String × String)) := do
  let types :=
    if isTyped analysis options then [("tsconfig.json", Json.document (tsconfig options.platform))] else []
  let styles ←
    if options.styling = .tailwind then do
      let text ← render "config/tailwind.config.js.j2" [("platform", .string options.platform.name)]
      pure [("tailwind.config.js", text)]
    else pure []
  let bundler ←
    if options.platform = .nextjs then do
      let text ← render "config/next.config.js.j2"
        [("localization", .bool options.addLocalization), ("locales", strings locales)]
      pure [("next.config.js", text)]
    else do
      let text ← render "config/vite.config.ts.j2" []
      pure [("vite.config.ts", text)]
  pure (types ++ styles ++ bundler)

def compliance (render : Renderer) (generatedAt : String) : Except Fault String :=
  render "docs/compliance.md.j2" [("generated_at", .string generatedAt)]

def firstTexts (texts : List ExtractedText) : List (String × String) :=
  texts.foldl
    (fun found text => if (Json.lookup found text.key).isSome then found else found ++ [(text.key, text.text)])
    []

/-- The document of a locale. Only the default locale has the extracted texts; in the others they
    wait for their words. -/
def localeDocument (locale : String) (texts : List ExtractedText) (generatedAt : String) : Json.Value :=
  let extracted := (sortedByName (firstTexts texts)).map
    (fun entry => (entry.1, Json.Value.string (if locale = defaultLocale then entry.2 else "")))
  .object
    [("locale", .string locale),
     ("direction", .string (if locale = "ar-SA" then "rtl" else "ltr")),
     ("metadata", .object [("version", .string "1.0.0"), ("lastUpdated", .string generatedAt)]),
     ("translations", .object
       (("common", versionsValue (commonTexts locale))
         :: (if extracted.isEmpty then [] else [("extracted", .object extracted)])))]

def localeFiles (texts : List ExtractedText) (generatedAt : String) : List (String × String) :=
  locales.map (fun locale => (locale ++ ".json", Json.document (localeDocument locale texts generatedAt)))

end Refit.Output
