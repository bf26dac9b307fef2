import Intake.Mime
import Intake.Program.Run
import Intake.Settings
import Intake.Table.Pages

/-!
# Reading pages

The text on the pages of scanned documents. A PDF is rendered to one image
a page, and every image is read on its own; an image is read directly.

* `PageReading.read` reads a document to its end.
* A page that cannot be read is left out when its program failed
  (`readOrSkip`); any other fault ends the reading.
* `images` puts the pages into order; `images_perm` says that it keeps
  every page image.
-/

namespace Intake.PageReading

open Text

/-- The resolution at which pages are rendered. -/
def resolution : Nat := 300

/-- The page cap in force: one that is not positive selects the default. -/
def capInForce (cap : Int) : Int := if cap ≤ 0 then Settings.defaultMaxPages else cap

/-- Renders the pages of a PDF. -/
def renderRequest (scratch : String) (cap : Int) : Request where
  program := Tool.rasterizer.name
  arguments := ["-png", "-r", toString resolution, "-l", Number.intText cap,
    scratch ++ "/input.pdf", scratch ++ "/page"]
  failure := .rasterize

/-- Reads one image as a token table. -/
def readRequest (image : String) : Request where
  program := Tool.ocrEngine.name
  arguments := [image, "stdout", "tsv"]

/-! ## Page images -/

/-- Whether a file is an image of a page. -/
def isPageImage (scratch file : String) : Bool :=
  let start := (scratch ++ "/page").toList
  let rest := file.toList.drop start.length
  start.isPrefixOf file.toList && ".png".toList.isSuffixOf rest && ! rest.contains '/'

/-- The page images among the files of the rasterizer, in page order. Page
numbers are padded with zeros, so the order of the names is page order. -/
def images (scratch : String) (files : List String) : List String :=
  (files.filter (isPageImage scratch)).eraseDups.mergeSort fun a b => decide (a ≤ b)

theorem images_perm (scratch : String) (files : List String) :
    (images scratch files).Perm (files.filter (isPageImage scratch)).eraseDups :=
  List.mergeSort_perm _ _

/-- Renders the pages of a PDF and gives their images. -/
def render (cap : Int) : Shell (List String) := do
  let site ← get
  let made ← Shell.run (renderRequest site.scratch cap)
  return images site.scratch made.files

/-! ## Reading -/

/-- The page in the output of the engine. -/
def pageOf (output : Utf8.Bytes) : Except Fault Page :=
  match Page.ofTable (Utf8.decodeString output) with
  | .ok page => .ok page
  | .error e => .error (.plain .value e.message)

/-- Reads one image. -/
def readImage (image : String) : Shell Page := do
  let result ← Shell.run (readRequest image)
  liftExcept (pageOf result.output)
where
  /-- A result or a fault as a computation. -/
  liftExcept {α : Type} : Except Fault α → Shell α
    | .ok a => return a
    | .error e => throw e

/-- Says that a page was left out. -/
def skipText (page total : Nat) (e : Fault) : String :=
  "OCR skipped page " ++ toString page ++ "/" ++ toString total ++ ": " ++ e.message

/-- Reads the image of a page. When the program fails the page is left
out. -/
def readOrSkip (page total : Nat) (image : String) : Shell (Option Page) :=
  tryCatch (some <$> readImage image) fun e =>
    if e.isTool then do
      Shell.note .pages .warning (skipText page total e)
      return none
    else throw e

/-- Reads the images from a page on. -/
def readImages (total page : Nat) : List String → Shell (List Page)
  | [] => return []
  | image :: rest => do
    Shell.check
    let read ← readOrSkip page total image
    let later ← readImages total (page + 1) rest
    return read.toList ++ later

/-- Reads the pages of a PDF. -/
def readPdf (cap : Int) : Shell Page := do
  let found ← render cap
  if found.isEmpty then return {}
  else return Pages.merge (← readImages found.length 1 found)

/-- The spacing of a page's text made normal. -/
def normalPage (page : Page) : Page := { page with text := normalized page.text }

/-- Reads an image. -/
def readPicture : Shell Page := do
  let site ← get
  normalPage <$> readImage (site.scratch ++ "/input.png")

/-- Reads a document. What is neither a PDF nor an image has no pages. -/
def read (data : Utf8.Bytes) (mime : String) (cap : Int) : Shell Page :=
  if data.isEmpty then return {}
  else if Mime.isPdf mime then readPdf (capInForce cap)
  else if Mime.isImage mime then readPicture
  else return {}

theorem read_nil (mime : String) (cap : Int) : read [] mime cap = pure {} := rfl

end Intake.PageReading
