/-
# Sample documents

A directory of small configuration documents that show what can be written and what can go wrong:
one that uses every feature, one with a remark, and one for each kind of error. They are found by
name, as files of the directory `tests/fixtures`.
-/

import MenuPlan.PlanFile

namespace MenuPlan.Samples

/-- A document that uses every feature. -/
def navigation : String :=
"menus:
  main:
    label: Main navigation
    options:
      childrenAttributes: \x7b class: nav \x7d
    items:
      home:
        label: Home
        route: homepage
      products:
        label: Products
        options:
          label: ignored
          extras: \x7b icon: box \x7d
        children:
          catalog:
            label: Catalog
            route: \x7b name: product_list, parameters: \x7b page: 1 \x7d, absolute: false \x7d
          featured:
            service: \x7b id: acme.featured_menu, method: createItem, parameters: \"@request\" \x7d
      account:
        expression: \"service('acme.account_menu').build()\"
  footer:
    items:
      legal: \x7b label: Legal, uri: /legal \x7d
breadcrumbs:
  profile_edit:
    label: Edit
    route: profile_edit
    parent: profile
  profile:
    label: Profile
    route: \x7b name: profile_show, parameters: \x7b id: \"@user.id\" \x7d \x7d
    parent: home
  home:
    label: Home
    route: homepage
"

/-- A document with a remark. -/
def warnings : String :=
"menus:
  main:
    items:
      mixed:
        service: acme.item
        children:
          never: \x7b label: Never built \x7d
"

/-- A document with an item that has an unknown key. -/
def unknownItemKey : String :=
"menus:
  main:
    items:
      home:
        label: Home
        icon: house
"

/-- A document with an item that does not obey the grammar. -/
def invalidItem : String :=
"menus:
  main:
    items:
      home:
        label: Home
        display: sometimes
"

/-- A document whose breadcrumbs are each other's parents. -/
def invalidCircularBreadcrumbs : String :=
"breadcrumbs:
  x:
    label: X
    parent: y
  y:
    label: Y
    parent: x
"

/-- A document with a breadcrumb whose parent does not exist. -/
def invalidMissingParent : String :=
"breadcrumbs:
  orphan:
    label: Orphan
    parent: z
"

/-- A text that is no document. -/
def invalidParseError : String :=
"menus:
  main: [unclosed
"

/-- The sample documents by the names of their files. -/
def documents : Fields String := [
  ("navigation.yaml", navigation),
  ("warnings.yaml", warnings),
  ("unknown-item-key.yaml", unknownItemKey),
  ("invalid-item.yaml", invalidItem),
  ("invalid-circular-breadcrumbs.yaml", invalidCircularBreadcrumbs),
  ("invalid-missing-parent.yaml", invalidMissingParent),
  ("invalid-parse-error.yaml", invalidParseError)]

/-- Where the directory of sample documents is. -/
def location : Location := ["tests", "fixtures"]

/-- The directory of sample documents and the directories around it. -/
def tree : FileTree where
  entries :=
    [(location, .directory), (location.dropLast, .directory)]
      ++ documents.map fun (name, text) => (location ++ [name], .file text.toUTF8)
  working := location

/-- The path of a file, given by its path from the directory of sample documents. -/
def path (name : String) : String :=
  if FilePath.isAbsolute name then name
  else "/" ++ String.intercalate "/" location ++ "/" ++ name

/-- What a sample document becomes with the default settings. -/
def compile (name : String) : Except CompileError Compiled :=
  tree.compile {} (path name)

end MenuPlan.Samples
