import Refit.Template.Render

namespace Refit.Template

def tailwind : Template :=
  [.lines
     ["/** @type \x7bimport('tailwindcss').Config\x7d */",
      "module.exports = \x7b",
      "  content: [",
      "    './src/**/*.\x7bjs,ts,jsx,tsx,mdx\x7d',"],
   .when (.isText (.var "platform") "nextjs")
     [.lines ["    './pages/**/*.\x7bjs,ts,jsx,tsx,mdx\x7d',"]],
   .lines
     ["  ],",
      "  theme: \x7b",
      "    extend: \x7b",
      "      colors: \x7b",
      "        'norway-blue': '#003d82',",
      "        'norway-red': '#ba0c2f',",
      "        'norway-white': '#ffffff',",
      "      \x7d,",
      "    \x7d,",
      "  \x7d,",
      "  plugins: [],",
      "\x7d;"]]

def next : Template :=
  [.lines
     ["/** @type \x7bimport('next').NextConfig\x7d */",
      "const nextConfig = \x7b",
      "  reactStrictMode: true,"],
   .when (.var "localization")
     [.lines ["  i18n: \x7b"],
      .text "    locales: [",
      .each "locale" (.var "locales")
        [.text "'",
         .emit (.var "locale"),
         .text "'",
         .emit (.choose (.not (.field (.var "loop") "last")) (.literal ", ") (.literal ""))],
      .lines ["],"],
      .text "    defaultLocale: '",
      .emit (.item (.var "locales") 0),
      .lines
        ["',",
         "    localeDetection: true,",
         "  \x7d,"]],
   .lines
     ["\x7d;",
      "",
      "module.exports = nextConfig;"]]

def vite : Template :=
  [.lines
     ["import \x7b defineConfig \x7d from 'vite';",
      "import react from '@vitejs/plugin-react';",
      "import path from 'path';",
      "",
      "export default defineConfig(\x7b",
      "  plugins: [react()],",
      "  resolve: \x7b",
      "    alias: \x7b",
      "      '@': path.resolve(__dirname, './src'),",
      "    \x7d,",
      "  \x7d,",
      "\x7d);"]]

def summary : Template :=
  [.text "# ",
   .emit (.var "project_name"),
   .lines
     ["",
      "",
      "This project was migrated to `@xala-technologies/ui-system` by uimigrate.",
      "",
      "## Migration Summary",
      ""],
   .text "- **Source**: ",
   .emit (.field (.var "analysis") "source"),
   .newline,
   .text "- **Framework**: ",
   .emit (.field (.var "analysis") "framework"),
   .newline,
   .text "- **Target Platform**: ",
   .emit (.field (.var "options") "target_platform"),
   .newline,
   .text "- **Target Styling**: ",
   .emit (.field (.var "options") "target_styling"),
   .newline,
   .text "- **Components Migrated**: ",
   .emit (.field (.field (.var "summary") "changes") "components"),
   .newline,
   .text "- **Pages Migrated**: ",
   .emit (.field (.field (.var "summary") "changes") "pages"),
   .newline,
   .text "- **Style Files**: ",
   .emit (.field (.field (.var "summary") "changes") "styles"),
   .newline,
   .text "- **Configuration Files**: ",
   .emit (.field (.field (.var "summary") "changes") "configurations"),
   .newline,
   .text "- **Files Migrated**: ",
   .emit (.field (.var "summary") "migrated_files"),
   .newline,
   .text "- **Errors**: ",
   .emit (.count (.var "errors")),
   .newline,
   .text "- **Warnings**: ",
   .emit (.count (.var "warnings")),
   .lines
     ["",
      "",
      "## Features Added",
      ""],
   .when (.field (.var "options") "add_localization")
     [.text "- Multi-language localization (",
      .emit (.join ", " (.var "locales")),
      .lines ["; Norwegian Bokmål default)"]],
   .when (.field (.var "options") "add_compliance")
     [.lines ["- Norwegian compliance documentation (NSM, GDPR, WCAG AAA)"]],
   .when (.field (.var "options") "convert_to_typescript")
     [.lines ["- TypeScript conversion"]],
   .lines ["- Component skeletons regenerated on the target component library"],
   .when (.var "errors")
     [.lines
        ["",
         "## Errors",
         ""],
      .each "error" (.var "errors")
        [.text "- `",
         .emit (.or (.field (.var "error") "file") (.literal "pipeline")),
         .text "` (",
         .emit (.field (.var "error") "kind"),
         .text "): ",
         .emit (.field (.var "error") "message"),
         .newline]],
   .when (.var "warnings")
     [.lines
        ["",
         "## Items Needing Review",
         ""],
      .each "warning" (.var "warnings")
        [.text "- `",
         .emit (.field (.var "warning") "file"),
         .text "` (",
         .emit (.field (.var "warning") "kind"),
         .text "): ",
         .emit (.field (.var "warning") "message"),
         .newline]],
   .lines
     ["",
      "## Getting Started",
      "",
      "```bash"],
   .emit (.var "package_manager"),
   .lines [" install"],
   .emit (.var "package_manager"),
   .text " ",
   .emit (.choose (.isText (.var "package_manager") "npm") (.literal "run ") (.literal "")),
   .lines ["dev"],
   .emit (.var "package_manager"),
   .text " ",
   .emit (.choose (.isText (.var "package_manager") "npm") (.literal "run ") (.literal "")),
   .lines
     ["build",
      "```",
      ""],
   .text "Generated by uimigrate on ",
   .emit (.var "generated_at"),
   .newline]

def compliance : Template :=
  [.lines
     ["# Norwegian Compliance Documentation",
      "",
      "This project follows Norwegian government standards and regulations.",
      "",
      "## NSM Security Classification",
      "",
      "- **Classification Level**: OPEN",
      "- **Data Handling**: All data is handled according to NSM guidelines",
      "- **Access Control**: Role-based access control",
      "",
      "## GDPR Compliance",
      "",
      "- **Data Protection**: Personal data is protected according to GDPR",
      "- **User Rights**: Users have full control over their data",
      "- **Audit Trail**: All data operations are logged",
      "",
      "## WCAG AAA Accessibility",
      "",
      "- **Screen Reader**: Full screen reader support",
      "- **Keyboard Navigation**: Complete keyboard accessibility",
      "- **Color Contrast**: AAA level color contrast ratios",
      "- **RTL Support**: Right-to-left layout for Arabic",
      "",
      "## Implementation",
      "",
      "This project uses:",
      "- `@xala-technologies/ui-system` for compliant components",
      "- `@xala-technologies/foundation` for core services",
      "- `@xala-technologies/norwegian-compliance` for compliance utilities",
      ""],
   .text "Generated by uimigrate on ",
   .emit (.var "generated_at"),
   .newline]

def tokenDeclarations : Template :=
  [.lines
     ["  /* Norwegian design tokens */",
      "  --color-norway-blue: #003d82;",
      "  --color-norway-red: #ba0c2f;",
      "  --color-norway-white: #ffffff;"],
   .when (.var "extended")
     [.lines
        ["",
         "  /* Semantic colors */",
         "  --color-primary: var(--color-norway-blue);",
         "  --color-secondary: var(--color-norway-red);",
         "  --color-background: var(--color-norway-white);"]],
   .lines
     ["",
      "  /* Spacing */",
      "  --spacing-xs: 0.25rem;",
      "  --spacing-sm: 0.5rem;",
      "  --spacing-md: 1rem;",
      "  --spacing-lg: 1.5rem;",
      "  --spacing-xl: 2rem;"],
   .when (.var "extended")
     [.lines ["  --spacing-2xl: 3rem;"]],
   .lines
     ["",
      "  /* Typography */",
      "  --font-size-xs: 0.75rem;",
      "  --font-size-sm: 0.875rem;",
      "  --font-size-base: 1rem;",
      "  --font-size-lg: 1.125rem;",
      "  --font-size-xl: 1.25rem;"],
   .when (.var "extended")
     [.lines
        ["  --font-size-2xl: 1.5rem;",
         "  --font-size-3xl: 1.875rem;"]],
   .lines
     ["",
      "  /* Border radius */",
      "  --radius-sm: 0.25rem;",
      "  --radius-md: 0.5rem;",
      "  --radius-lg: 0.75rem;"],
   .when (.var "extended")
     [.lines
        ["  --radius-xl: 1rem;",
         "",
         "  /* Shadows */",
         "  --shadow-sm: 0 1px 2px 0 rgb(0 0 0 / 0.05);",
         "  --shadow-md: 0 4px 6px -1px rgb(0 0 0 / 0.1);",
         "  --shadow-lg: 0 10px 15px -3px rgb(0 0 0 / 0.1);"]]]

def tokens : Template :=
  [.lines [":root \x7b"],
   .insert "styles/_token_declarations.j2",
   .lines ["\x7d"]]

def globals : Template :=
  [.lines
     ["@tailwind base;",
      "@tailwind components;",
      "@tailwind utilities;",
      "",
      "@layer base \x7b",
      "  html \x7b",
      "    font-family: system-ui, sans-serif;",
      "  \x7d",
      "",
      "  body \x7b",
      "    @apply bg-white text-gray-900;",
      "  \x7d",
      "",
      "  /* RTL support for Arabic */",
      "  [dir=\"rtl\"] \x7b",
      "    direction: rtl;",
      "  \x7d",
      "\x7d",
      "",
      "@layer components \x7b",
      "  .btn \x7b",
      "    @apply px-4 py-2 rounded-lg font-medium transition-colors;",
      "  \x7d",
      "",
      "  .btn-primary \x7b",
      "    @apply bg-norway-blue text-white hover:bg-blue-700;",
      "  \x7d"],
   .when (.var "extended")
     [.lines
        ["",
         "  .btn-secondary \x7b",
         "    @apply bg-gray-200 text-gray-900 hover:bg-gray-300;",
         "  \x7d"]],
   .lines ["\x7d"]]

def componentStyles : Template :=
  [.lines
     ["/* @xala-technologies/ui-system component styles */",
      "",
      ".xala-button \x7b",
      "  display: inline-flex;",
      "  align-items: center;",
      "  justify-content: center;",
      "  padding: var(--spacing-sm) var(--spacing-md);",
      "  border-radius: var(--radius-md);",
      "  font-weight: 500;",
      "  transition: all 0.2s ease-in-out;",
      "  border: none;",
      "  cursor: pointer;",
      "\x7d",
      "",
      ".xala-button:hover \x7b",
      "  transform: translateY(-1px);",
      "  box-shadow: var(--shadow-md);",
      "\x7d",
      "",
      ".xala-input \x7b",
      "  width: 100%;",
      "  padding: var(--spacing-sm) var(--spacing-md);",
      "  border: 1px solid #d1d5db;",
      "  border-radius: var(--radius-md);",
      "  font-size: var(--font-size-base);",
      "\x7d",
      "",
      ".xala-input:focus \x7b",
      "  outline: none;",
      "  border-color: var(--color-primary);",
      "  box-shadow: 0 0 0 3px rgb(0 61 130 / 0.1);",
      "\x7d",
      "",
      ".xala-card \x7b",
      "  background: white;",
      "  border-radius: var(--radius-lg);",
      "  box-shadow: var(--shadow-sm);",
      "  padding: var(--spacing-lg);",
      "  border: 1px solid #f3f4f6;",
      "\x7d",
      "",
      "[dir=\"rtl\"] .xala-button,",
      "[dir=\"rtl\"] .xala-input \x7b",
      "  direction: rtl;",
      "\x7d"]]

def baseModule : Template :=
  [.lines
     [".container \x7b",
      "  padding: var(--spacing-md);",
      "  border-radius: var(--radius-lg);",
      "\x7d",
      "",
      ".page \x7b",
      "  display: flex;",
      "  flex-direction: column;",
      "  gap: var(--spacing-lg);",
      "  padding: var(--spacing-xl);",
      "\x7d",
      "",
      ".rtl \x7b",
      "  direction: rtl;",
      "\x7d"]]

def theme : Template :=
  [.choice (.var "typed")
     [.lines
        ["import type \x7b DefaultTheme \x7d from 'styled-components';",
         "",
         "export const theme: DefaultTheme = \x7b"]]
     [.lines ["export const theme = \x7b"]],
   .lines
     ["  colors: \x7b",
      "    primary: '#003d82',",
      "    secondary: '#ba0c2f',",
      "    background: '#ffffff',",
      "    text: '#111827',",
      "  \x7d,",
      "  spacing: \x7b",
      "    xs: '0.25rem',",
      "    sm: '0.5rem',",
      "    md: '1rem',",
      "    lg: '1.5rem',",
      "    xl: '2rem',",
      "  \x7d,",
      "  radii: \x7b",
      "    sm: '0.25rem',",
      "    md: '0.5rem',",
      "    lg: '0.75rem',",
      "  \x7d,",
      "  fontSizes: \x7b",
      "    sm: '0.875rem',",
      "    base: '1rem',",
      "    lg: '1.125rem',",
      "    xl: '1.25rem',",
      "  \x7d,",
      "\x7d;",
      "",
      "export default theme;"]]

def globalStyle : Template :=
  [.lines
     ["import \x7b createGlobalStyle \x7d from 'styled-components';",
      "",
      "export const GlobalStyle = createGlobalStyle`",
      "  html \x7b",
      "    font-family: system-ui, sans-serif;",
      "  \x7d",
      "",
      "  body \x7b",
      "    margin: 0;",
      "    background: $\x7b(\x7b theme \x7d) => theme.colors.background\x7d;",
      "    color: $\x7b(\x7b theme \x7d) => theme.colors.text\x7d;",
      "  \x7d",
      "",
      "  [dir='rtl'] \x7b",
      "    direction: rtl;",
      "  \x7d",
      "`;",
      "",
      "export default GlobalStyle;"]]

/-- A component: its props, its parameters and an empty body that tells where it came from. -/
def component : Template :=
  [.lines ["import React from 'react';"],
   .when (.var "localization")
     [.lines ["import \x7b useTranslation \x7d from 'react-i18next';"]],
   .text "import \x7b ",
   .emit (.join ", " (.var "target_names")),
   .lines [" \x7d from '@xala-technologies/ui-system';"],
   .each "line" (.var "imports")
     [.emit (.var "line"),
      .newline],
   .newline,
   .choice (.var "typed")
     [.text "export interface ",
      .emit (.var "name"),
      .lines ["Props \x7b"],
      .each "prop" (.var "props")
        [.text "  readonly ",
         .emit (.field (.var "prop") "name"),
         .emit (.choose (.field (.var "prop") "required") (.literal "") (.literal "?")),
         .text ": ",
         .emit (.field (.var "prop") "type"),
         .lines [";"]],
      .lines ["  readonly className?: string;"],
      .when (.var "localization")
        [.lines ["  readonly ariaLabel?: string;"]],
      .lines
        ["\x7d",
         ""],
      .text "export const ",
      .emit (.var "name"),
      .text ": React.FC<",
      .emit (.var "name"),
      .text "Props> = (\x7b ",
      .emit (.join ", " (.var "parameters")),
      .lines [" \x7d) => \x7b"]]
     [.text "export const ",
      .emit (.var "name"),
      .text " = (\x7b ",
      .emit (.join ", " (.var "parameters")),
      .lines [" \x7d) => \x7b"]],
   .when (.var "localization")
     [.lines
        ["  const \x7b t \x7d = useTranslation();",
         ""]],
   .lines
     ["  return (",
      "    <Container"],
   .text "      className=\x7b[",
   .emit (.join ", " (.var "class_names")),
   .lines ["].filter(Boolean).join(' ')\x7d"],
   .when (.var "localization")
     [.text "      aria-label=\x7bariaLabel ?? t('components.",
      .emit (.var "translation_key"),
      .lines [".label')\x7d"]],
   .lines
     ["    >",
      "      \x7b/*"],
   .text "        Migrated from ",
   .emit (.var "source_label"),
   .text " ",
   .emit (.var "kind"),
   .text " component ",
   .emit (.var "name"),
   .lines ["."],
   .text "        Hooks: ",
   .emit (.choose (.var "hooks") (.join ", " (.var "hooks")) (.literal "none")),
   .newline,
   .text "        Elements: ",
   .emit (.choose (.var "elements") (.join ", " (.var "elements")) (.literal "none")),
   .newline,
   .text "        Complexity: ",
   .emit (.var "complexity"),
   .lines
     ["/10",
      "        Original logic was not ported; rebuild it with @xala-technologies/ui-system primitives.",
      "      */\x7d",
      "    </Container>",
      "  );",
      "\x7d;",
      ""],
   .text "export default ",
   .emit (.var "name"),
   .lines [";"]]

def page : Template :=
  [.lines ["import React from 'react';"],
   .choice (.isText (.var "platform") "nextjs")
     [.lines ["import Head from 'next/head';"],
      .when (.var "has_auth")
        [.lines ["import \x7b useSession \x7d from 'next-auth/react';"]],
      .when (.and (.var "typed") (.isAmong (.var "data_fetching") ["ssr", "ssg"]))
        [.text "import type \x7b ",
         .emit (.choose (.isText (.var "data_fetching") "ssr")
           (.literal "GetServerSideProps") (.literal "GetStaticProps")),
         .lines [" \x7d from 'next';"]]]
     [.lines ["import \x7b Helmet \x7d from 'react-helmet-async';"],
      .when (.var "has_auth")
        [.lines ["import \x7b useAuth \x7d from '@/hooks/useAuth';"]]],
   .when (.var "localization")
     [.lines ["import \x7b useTranslation \x7d from 'react-i18next';"]],
   .text "import \x7b ",
   .emit (.join ", " (.var "target_names")),
   .lines [" \x7d from '@xala-technologies/ui-system';"],
   .when (.var "has_layout")
     [.lines ["import \x7b DefaultLayout \x7d from '@/layouts';"]],
   .newline,
   .choice (.var "typed")
     [.text "export interface ",
      .emit (.var "identifier"),
      .lines
        ["Props \x7b",
         "  readonly className?: string;",
         "\x7d",
         ""],
      .text "const ",
      .emit (.var "identifier"),
      .text ": React.FC<",
      .emit (.var "identifier"),
      .lines ["Props> = (\x7b className \x7d) => \x7b"]]
     [.text "const ",
      .emit (.var "identifier"),
      .lines [" = (\x7b className \x7d) => \x7b"]],
   .when (.var "localization")
     [.lines ["  const \x7b t \x7d = useTranslation();"]],
   .when (.var "has_auth")
     [.choice (.isText (.var "platform") "nextjs")
        [.lines
           ["  const \x7b data: session, status \x7d = useSession();",
            "",
            "  if (status === 'loading') return <Typography>Loading...</Typography>;",
            "  if (!session) return <Typography>Access denied</Typography>;"]]
        [.lines
           ["  const \x7b user, loading \x7d = useAuth();",
            "",
            "  if (loading) return <Typography>Loading...</Typography>;",
            "  if (!user) return <Typography>Access denied</Typography>;"]]],
   .when (.or (.var "localization") (.var "has_auth"))
     [.newline],
   .lines
     ["  const content = (",
      "    <>"],
   .text "      <",
   .emit (.var "head_tag"),
   .lines [">"],
   .text "        <title>",
   .emit (.childText (.var "title")),
   .lines ["</title>"],
   .when (.var "description")
     [.text "        <meta name=\"description\" content=",
      .emit (.attributeValue (.var "description")),
      .lines [" />"]],
   .text "      </",
   .emit (.var "head_tag"),
   .lines [">"],
   .text "      <Container className=\x7b['page-",
   .emit (.var "slug"),
   .lines ["', className].filter(Boolean).join(' ')\x7d>"],
   .text "        <Typography variant=\"h1\">",
   .emit (.var "heading"),
   .lines
     ["</Typography>",
      "        \x7b/*"],
   .text "          Migrated from ",
   .emit (.var "source_label"),
   .text " page ",
   .emit (.var "name"),
   .text " (route ",
   .emit (.var "route"),
   .lines [")."],
   .text "          Components: ",
   .emit (.choose (.var "components") (.join ", " (.var "components")) (.literal "none")),
   .newline,
   .text "          Data fetching: ",
   .emit (.or (.var "data_fetching") (.literal "none")),
   .lines
     ["",
      "          Page content was not ported; rebuild it with @xala-technologies/ui-system primitives.",
      "        */\x7d",
      "      </Container>",
      "    </>",
      "  );",
      ""],
   .choice (.var "has_layout")
     [.lines ["  return <DefaultLayout>\x7bcontent\x7d</DefaultLayout>;"]]
     [.lines ["  return content;"]],
   .lines ["\x7d;"],
   .choice (.and (.isText (.var "platform") "nextjs") (.isText (.var "data_fetching") "ssr"))
     [.newline,
      .text "export const getServerSideProps",
      .emit (.choose (.var "typed") (.literal ": GetServerSideProps") (.literal "")),
      .lines
        [" = async () => \x7b",
         "  return \x7b props: \x7b\x7d \x7d;",
         "\x7d;"]]
     [.when (.and (.isText (.var "platform") "nextjs") (.isText (.var "data_fetching") "ssg"))
        [.newline,
         .text "export const getStaticProps",
         .emit (.choose (.var "typed") (.literal ": GetStaticProps") (.literal "")),
         .lines
           [" = async () => \x7b",
            "  return \x7b props: \x7b\x7d \x7d;",
            "\x7d;"]]],
   .newline,
   .text "export default ",
   .emit (.var "identifier"),
   .lines [";"]]

def hook : Template :=
  [.each "line" (.var "imports")
     [.emit (.var "line"),
      .newline],
   .when (.var "imports")
     [.newline],
   .lines ["/**"],
   .text " * Migrated from ",
   .emit (.var "source_label"),
   .text " hook ",
   .emit (.var "name"),
   .lines ["."],
   .text " * Hooks used: ",
   .emit (.choose (.var "hooks") (.join ", " (.var "hooks")) (.literal "none")),
   .newline,
   .text " * Complexity: ",
   .emit (.var "complexity"),
   .lines
     ["/10",
      " * Original logic was not ported; reimplement the hook body.",
      " */"],
   .choice (.var "typed")
     [.text "export interface ",
      .emit (.pascal (.var "name")),
      .lines
        ["Result \x7b",
         "  readonly ready: boolean;",
         "\x7d",
         ""],
      .text "export function ",
      .emit (.var "name"),
      .text "(): ",
      .emit (.pascal (.var "name")),
      .lines ["Result \x7b"]]
     [.text "export function ",
      .emit (.var "name"),
      .lines ["() \x7b"]],
   .lines
     ["  return \x7b ready: false \x7d;",
      "\x7d",
      ""],
   .text "export default ",
   .emit (.var "name"),
   .lines [";"]]

def standard : Library :=
  { templates :=
      [("component.jsx.j2", component),
       ("page.jsx.j2", page),
       ("hook.js.j2", hook),
       ("styles/_token_declarations.j2", tokenDeclarations),
       ("styles/tokens.css.j2", tokens),
       ("styles/globals.css.j2", globals),
       ("styles/components.css.j2", componentStyles),
       ("styles/base.module.css.j2", baseModule),
       ("styles/theme.js.j2", theme),
       ("styles/global-styles.js.j2", globalStyle),
       ("config/tailwind.config.js.j2", tailwind),
       ("config/next.config.js.j2", next),
       ("config/vite.config.ts.j2", vite),
       ("docs/summary.md.j2", summary),
       ("docs/compliance.md.j2", compliance)]
    places := ["/templates"] }

end Refit.Template
