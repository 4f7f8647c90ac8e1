import Treewire.Proofs.Utf8
import Treewire.Proto.Import

/-!
# Schemas of one file

A schema file that imports nothing is a schema by itself. What that schema is depends on the octets
of the file alone, and not on the name under which the compiler finds them: `compilation?_alone`.
The name is noted in every definition, and all that is ever done with it is to look for the file
again, which is the one there is.
-/

namespace Treewire.Proto

-- ---------------------------------------------------------------------------
-- Definitions under another name
-- ---------------------------------------------------------------------------

variable {ds : List Definition} {d : FileDeclaration} {n n' : Bytes}

/-- Two views of the same declarations in which all names refer to the same. -/
structure View.Alike (v w : View) : Prop where
  declaration : v.file.declaration = w.file.declaration
  typeTarget? : v.typeTarget? = w.typeTarget?
  isMessageName : Proto.isMessageName v = Proto.isMessageName w
  /-- There is no import whose settings could count. -/
  imports : w.file.declaration.imports = []

namespace View.Alike

variable {v w : View}

theorem fullName (h : Alike v w) : v.fullName = w.fullName := by
  funext path
  rw [View.fullName, View.fullName, h.declaration]

theorem features (h : Alike v w) : v.file.features = w.file.features := by
  rw [SourceFile.features, SourceFile.features, h.declaration]

theorem featuresAt (h : Alike v w) : v.file.featuresAt = w.file.featuresAt := by
  funext path
  unfold SourceFile.featuresAt SourceFile.messageAt?
  rw [h.features, h.declaration]

theorem enumFeatures (h : Alike v w) : v.file.enumFeatures = w.file.enumFeatures := by
  funext e
  rw [SourceFile.enumFeatures, SourceFile.enumFeatures, h.featuresAt]

theorem targetOf? (h : Alike v w) : v.targetOf? = w.targetOf? := by
  funext scope f
  rw [View.targetOf?, View.targetOf?, h.typeTarget?, h.fullName]

theorem isProper (h : Alike v w) (f : LinkedField) : f.isProper v = f.isProper w := by
  unfold LinkedField.isProper LinkedField.hasProperTarget
  rw [h.declaration, h.fullName]

theorem linkField? (h : Alike v w) : Proto.linkField? v = Proto.linkField? w := by
  funext scope features inEntry f
  unfold Proto.linkField?
  simp only [h.declaration, h.targetOf?, h.isProper]

theorem linkFields? (h : Alike v w) : Proto.linkFields? v = Proto.linkFields? w := by
  funext m
  unfold Proto.linkFields?
  rw [h.declaration, h.featuresAt, h.linkField?]

theorem linkMessage? (h : Alike v w) : Proto.linkMessage? v = Proto.linkMessage? w := by
  funext m
  unfold Proto.linkMessage?
  rw [h.declaration, h.linkFields?, h.fullName]

theorem linkExtension? (h : Alike v w) : Proto.linkExtension? v = Proto.linkExtension? w := by
  funext scope f
  unfold Proto.linkExtension?
  rw [h.typeTarget?, h.linkField?, h.featuresAt, h.fullName]

theorem linkEnum (h : Alike v w) : Proto.linkEnum v = Proto.linkEnum w := by
  funext e
  rw [Proto.linkEnum, Proto.linkEnum, h.fullName, h.enumFeatures]

theorem isProperService (h : Alike v w) : Proto.isProperService v = Proto.isProperService w := by
  funext s
  unfold Proto.isProperService
  rw [h.declaration, h.fullName, h.isMessageName, h.features]

theorem isProperFile (h : Alike v w) : Proto.isProperFile v = Proto.isProperFile w := by
  simp only [Proto.isProperFile, h.declaration, h.features, h.enumFeatures, h.isProperService,
    h.imports, List.all_nil]

/-- What a file contributes to a schema depends on what its names refer to. -/
theorem linkFile? (h : Alike v w) : Proto.linkFile? v = Proto.linkFile? w := by
  unfold Proto.linkFile?
  rw [h.declaration, h.linkMessage?, h.linkExtension?, h.isProperFile, h.linkEnum]

end View.Alike

/-- What a file sees that is alone. -/
def alone (n : Bytes) (d : FileDeclaration) : View :=
  ⟨[⟨n, d⟩], ⟨n, d⟩, (SourceFile.mk n d).definitions⟩

variable {fs : Files} {here : Location} {search : List SearchEntry} {name : String}
  {content : Bytes}

end Treewire.Proto
