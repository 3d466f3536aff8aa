import ModelGrid.Component.Template
import ModelGrid.Store.Workspace

/-!
# The files of a new component

A new component consists of four files.  Each is made of a template; what depends on the properties
of the model is spliced in afterwards.

## Main definitions

* `Skeleton.componentClass`, `Skeleton.componentMarkup`, `Skeleton.dataService`,
  `Skeleton.constants`: the templates.
* `Skeleton.files`: the names of the files with their templates.
* `Skeleton.write`: write the files into a folder.
-/

namespace ModelGrid.Component.Skeleton

open Store

/-! ### Templates -/

/-- The class of the component: it shows the rows that the data service describes. -/
def componentClass : List Piece :=
  [.literal
      ("import \x7b Component, OnInit \x7d from '@angular/core';\n" ++
       "import \x7b ColumnItemStrict, StringIndexerHelper \x7d from 'ui-lib';\n" ++
       "\n" ++
       "import \x7b "),
   .marker .className,
   .literal "DataService \x7d from './",
   .marker .dashedName,
   .literal
      ("-data.service';\n" ++
       "import \x7b mapTo"),
   .marker .modelName,
   .literal "Row \x7d from './",
   .marker .dashedName,
   .literal
      (".component.constants';\n" ++
       "import \x7b "),
   .marker .modelName,
   .literal " \x7d from './",
   .marker .modelFileName,
   .literal
      ("';\n" ++
       "\n" ++
       "@Component(\x7b\n" ++
       "\tselector: 'app-"),
   .marker .dashedName,
   .literal
      ("',\n" ++
       "\ttemplateUrl: './"),
   .marker .dashedName,
   .literal
      (".component.html'\n" ++
       "\x7d)\n" ++
       "export class "),
   .marker .className,
   .literal
      ("Component implements OnInit \x7b\n" ++
       "\n" ++
       "\tcolumns: StringIndexerHelper<ColumnItemStrict>;\n" ++
       "\trows: \x7b [key: string]: unknown \x7d[] = [];\n" ++
       "\n" ++
       "\tconstructor(private readonly dataService: "),
   .marker .className,
   .literal
      ("DataService) \x7b\n" ++
       "\t\tthis.columns = this.dataService.getColumns();\n" ++
       "\t\x7d\n" ++
       "\n" ++
       "\tngOnInit(): void \x7b\n" ++
       "\t\tthis.load([]);\n" ++
       "\t\x7d\n" ++
       "\n" ++
       "\tload(items: "),
   .marker .modelName,
   .literal
      ("[]): void \x7b\n" ++
       "\t\tthis.rows = items.map(mapTo"),
   .marker .modelName,
   .literal
      ("Row);\n" ++
       "\t\x7d\n" ++
       "\x7d\n")]

/-- The markup of the component: a table with the columns and rows of its class. -/
def componentMarkup : List Piece :=
  [.literal "<div class=\"",
   .marker .dashedName,
   .literal
      ("\">\n" ++
       "\t<ui-table [columns]=\"columns\" [rows]=\"rows\"></ui-table>\n" ++
       "</div>\n")]

/-- The service that describes the columns.  Its only `return` is where columns are registered. -/
def dataService : List Piece :=
  [.literal
      ("import \x7b Injectable \x7d from '@angular/core';\n" ++
       "import \x7b ColumnItemStrict, StringIndexerHelper \x7d from 'ui-lib';\n" ++
       "\n" ++
       "@Injectable(\x7b\n" ++
       "\tprovidedIn: 'root'\n" ++
       "\x7d)\n" ++
       "export class "),
   .marker .className,
   .literal
      ("DataService \x7b\n" ++
       "\n" ++
       "\tgetColumns(): StringIndexerHelper<ColumnItemStrict> \x7b\n" ++
       "\t\tconst stringIndexerHelper = new StringIndexerHelper<ColumnItemStrict>();\n" ++
       "\t\treturn stringIndexerHelper;\n" ++
       "\t\x7d\n" ++
       "\x7d\n")]

/-- The function that maps an object of the model to a row.  Its body is still empty. -/
def constants : List Piece :=
  [.literal
      ("import \x7b formatDate \x7d from '@angular/common';\n" ++
       "\n" ++
       "import \x7b "),
   .marker .modelName,
   .literal " \x7d from './",
   .marker .modelFileName,
   .literal
      ("';\n" ++
       "\n" ++
       "export const mapTo"),
   .marker .modelName,
   .literal "Row = (dto: ",
   .marker .modelName,
   .literal
      ("): \x7b [key: string]: unknown \x7d => \x7b\n" ++
       "\x7d;\n")]

/-! ### Files -/

/-- The names of the files with their templates, in the order in which they are written. -/
def files (p : Values) : List (String × List Piece) :=
  [(p.dashedName ++ ".component.ts", componentClass),
   (p.dashedName ++ ".component.html", componentMarkup),
   (p.dashedName ++ "-data.service.ts", dataService),
   (p.dashedName ++ ".component.constants.ts", constants)]

/-- Write files into a folder, and give their paths. -/
def writeAll (w : Workspace) (folder : String) (p : Values) :
    List (String × List Piece) → Action (List String)
  | [] => return []
  | (file, pieces) :: rest => do
    let path := folder ++ "/" ++ file
    w.overwrite path (p.render (Piece.template pieces))
    return path :: (← writeAll w folder p rest)

/-- Write the files of a component into a folder, in place of files that are there, and give their
paths. -/
def write (w : Workspace) (folder : String) (p : Values) : Action (List String) :=
  writeAll w folder p (files p)

end ModelGrid.Component.Skeleton
