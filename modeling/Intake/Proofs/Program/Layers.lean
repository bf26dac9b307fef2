import Intake.Layer.PageReading
import Intake.Layer.TextLayer
import Intake.Proofs.Program.Shells

/-!
# Properties of layers

The text layer and the reading of pages are put together from programs,
looks at the cancellation, questions about tools and records.  A property of
computations that these parts have, and that their compositions keep, is a
property of the layers.

* `Shell.IsInherited` is the condition on the property.
* `IsInherited.extract` and `IsInherited.read` are the results, with one lemma
  for each function on the way.
-/

namespace Intake

/-- A property of computations that the parts of the layers have and that
every way of putting them together keeps.  Only a handler for failed programs
is asked for, which hands every other fault on. -/
structure Shell.IsInherited (A : {α : Type} → Shell α → Prop) : Prop where
  pure {α : Type} (a : α) : A (pure a : Shell α)
  bind {α β : Type} {x : Shell α} {f : α → Shell β} (hx : A x) (hf : ∀ a, A (f a)) : A (x >>= f)
  get : A (get : Shell Site)
  ask {α : Type} (question : StateM Tools α) : A (Shell.ask question)
  note (source : Source) (level : Level) (text : String) : A (Shell.note source level text)
  check : A Shell.check
  run {r : Request} (hr : r.limit = none → r.program ≠ Tool.textExtractor.name) : A (Shell.run r)
  page (output : Text.Utf8.Bytes) :
    A (PageReading.readImage.liftExcept (PageReading.pageOf output))
  skip {α : Type} {x : Shell α} {handle : Fault → Shell α} (hx : A x)
    (hhandle : ∀ e, A (handle e)) : A (tryCatch x fun e => if e.isTool then handle e else throw e)

namespace Shell.IsInherited

variable {A : {α : Type} → Shell α → Prop}

theorem map (h : IsInherited A) {α β : Type} {x : Shell α} (hx : A x) (f : α → β) :
    A (f <$> x) := by
  rw [map_eq_pure_bind]
  exact h.bind hx fun a => h.pure (f a)

theorem ite (_ : IsInherited A) {α : Type} {c : Prop} [Decidable c] {x y : Shell α} (hx : A x)
    (hy : A y) : A (if c then x else y) := by
  split
  · exact hx
  · exact hy

/-! ## The text layer -/

theorem extract (h : IsInherited A) (data : Text.Utf8.Bytes) (mime : String)
    (bound : Option Float) : A (TextLayer.extract data mime bound) := by
  rw [TextLayer.extract]
  refine h.ite (h.pure _) (h.ite ?_ (h.ite (h.pure _) (h.pure _)))
  refine h.bind (h.ask _) fun available => h.ite ?_ (h.pure _)
  refine h.bind h.get fun site => h.bind (h.run fun hlimit => ?_) fun result => ?_
  · cases hlimit
  · exact h.bind (h.note _ _ _) fun _ => h.pure _

/-! ## Pages -/

theorem readImage (h : IsInherited A) (image : String) : A (PageReading.readImage image) := by
  refine h.bind (h.run fun _ => ?_) fun result => h.page result.output
  show Tool.ocrEngine.name ≠ Tool.textExtractor.name
  decide

theorem readOrSkip (h : IsInherited A) (page total : Nat) (image : String) :
    A (PageReading.readOrSkip page total image) :=
  h.skip (h.map (h.readImage image) some) fun _ => h.bind (h.note _ _ _) fun _ => h.pure _

theorem readImages (h : IsInherited A) (total page : Nat) (images : List String) :
    A (PageReading.readImages total page images) := by
  induction images generalizing page with
  | nil => exact h.pure _
  | cons image rest ih =>
    refine h.bind h.check fun _ => h.bind (h.readOrSkip page total image) fun read => ?_
    exact h.bind (ih (page + 1)) fun later => h.pure _

theorem readPdf (h : IsInherited A) (cap : Int) : A (PageReading.readPdf cap) := by
  have hrender : A (PageReading.render cap) := by
    refine h.bind h.get fun site => h.bind (h.run fun _ => ?_) fun made => h.pure _
    show Tool.rasterizer.name ≠ Tool.textExtractor.name
    decide
  refine h.bind hrender fun found => h.ite (h.pure _) ?_
  exact h.bind (h.readImages _ _ _) fun pages => h.pure _

theorem read (h : IsInherited A) (data : Text.Utf8.Bytes) (mime : String) (cap : Int) :
    A (PageReading.read data mime cap) := by
  rw [PageReading.read]
  refine h.ite (h.pure _) (h.ite (h.readPdf _) (h.ite ?_ (h.pure _)))
  exact h.bind h.get fun site => h.map (h.readImage _) _

end Shell.IsInherited
end Intake
