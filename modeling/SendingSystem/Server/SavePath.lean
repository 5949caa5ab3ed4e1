import SendingSystem.Lib.Path
import SendingSystem.Server.FileService

/-!
# Where files are stored

The paths `save_text_to_file` and `on_field_found` build from a sanitised name.
Both print `"%s/%s"` into a bounded array, the upload handler twice: into the
path buffer of the form parser and from there into its own context. Since a
sanitised name is never longer than `MAX_FILENAME`, no array cuts the path, so
the path keeps the whole name and names an entry directly inside `SAVE_DIR`.

## Main definitions

* `savePath`: The text `"%s/%s"` printed into an array.
* `fullPath`: The path a text message is saved under.
* `foundPath`, `contextPath`: The path of a file part and the handler's copy of it.

## Theorems

* `savePath_eq`: A large enough array holds the whole path.
* `saved_path_contained`: The sanitised name and the paths built from it.
-/

namespace SendingSystem

namespace Server

open CString SendingSystem.Path

/-- `sizeof(full_path)`, which is also `sizeof(u->path)`. -/
def fullPathSize : Nat := maxFilename + saveDirLength + 2

/-- The whole path of a stored name. -/
def storedPath (name : List UInt8) : List UInt8 := saveDir ++ slash :: name

/-- `snprintf(path, cap, "%s/%s", SAVE_DIR, safe_name)`. -/
def savePath (regcomp : Bool) (cap : Nat) (src : Option CStr) : List UInt8 :=
  snprintf cap (storedPath (safeName regcomp src))

/-- `full_path` of `save_text_to_file`. -/
def fullPath (regcomp : Bool) (saveToPath : Option CStr) : List UInt8 :=
  savePath regcomp fullPathSize saveToPath

/-- `path` of `on_field_found`, an array of `pathlen` bytes the form parser owns. -/
def foundPath (regcomp : Bool) (pathlen : Nat) (filename : Option CStr) : List UInt8 :=
  savePath regcomp pathlen filename

/-- `u->path` of `on_field_found`. -/
def contextPath (path : List UInt8) : List UInt8 := snprintf fullPathSize path

theorem slash_not_valid : validByte slash = false := by decide

theorem SafeName.slash_notMem {name : List UInt8} (h : SafeName name) : slash ∉ name := by
  intro hs
  have := h.valid slash hs
  rw [slash_not_valid] at this
  exact Bool.false_ne_true this

theorem storedPath_injective {a b : List UInt8} (h : storedPath a = storedPath b) : a = b := by
  rw [storedPath, storedPath, List.append_cancel_left_eq, List.cons.injEq] at h
  exact h.2

/-- A stored name is an entry directly inside the directory. -/
theorem resolve_storedPath {name : List UInt8} (h : SafeName name) :
    resolve (storedPath name) = resolve saveDir ++ [name] :=
  resolve_leaf saveDir name h.slash_notMem h.nonempty h.head

theorem length_storedPath {name : List UInt8} (h : SafeName name) :
    (storedPath name).length < fullPathSize := by
  have hlen := h.length_le
  rw [storedPath, List.length_append, List.length_cons, saveDir_length]
  unfold fullPathSize
  omega

/-- An array at least as large as the handler's own holds the whole path. -/
theorem savePath_eq (regcomp : Bool) {cap : Nat} (hcap : fullPathSize ≤ cap) (src : Option CStr) :
    savePath regcomp cap src = storedPath (sanitizedName regcomp src) := by
  have hlen := length_storedPath (sanitizedName_safe regcomp src)
  rw [savePath, safeName_eq, snprintf]
  exact List.take_of_length_le (by omega)

theorem fullPath_eq (regcomp : Bool) (src : Option CStr) :
    fullPath regcomp src = storedPath (sanitizedName regcomp src) :=
  savePath_eq regcomp (Nat.le_refl _) src

theorem foundPath_eq (regcomp : Bool) {pathlen : Nat} (hcap : fullPathSize ≤ pathlen)
    (src : Option CStr) : foundPath regcomp pathlen src = storedPath (sanitizedName regcomp src) :=
  savePath_eq regcomp hcap src

theorem contextPath_eq (regcomp : Bool) (src : Option CStr) :
    contextPath (storedPath (sanitizedName regcomp src))
      = storedPath (sanitizedName regcomp src) := by
  have hlen := length_storedPath (sanitizedName_safe regcomp src)
  rw [contextPath, snprintf]
  exact List.take_of_length_le (by omega)

/-- For every source name, absent or of any length, and whatever the arrays held
    before, the destination ends up with a terminated name of 1 to `MAX_FILENAME`
    allowed bytes, without `..` and without a leading dot. The path of a text
    message, the path of a file part and the handler's copy of it are all
    `SAVE_DIR/` and that whole name, an entry directly inside `SAVE_DIR`, and
    names that differ give paths that differ. -/
theorem saved_path_contained (pathlen : Nat) (hpathlen : 268 ≤ pathlen) :
    (∀ (src : Option CStr) (temp dest : Buf (maxFilename + 1)), ∃ out name,
      sanitizeFilename true temp dest (maxFilename + 1) src = some out ∧ HoldsAt out 0 name ∧
      1 ≤ name.length ∧ name.length ≤ 255 ∧ (∀ b ∈ name, validByte b = true) ∧
      ¬ [dot, dot] <:+: name ∧ name.head? ≠ some dot ∧
      fullPath true src = ascii "build/saves/" ++ name ∧
      foundPath true pathlen src = ascii "build/saves/" ++ name ∧
      contextPath (foundPath true pathlen src) = ascii "build/saves/" ++ name ∧
      resolve (ascii "build/saves/" ++ name) = resolve saveDir ++ [name]) ∧
    (∀ src₁ src₂ : Option CStr, safeName true src₁ ≠ safeName true src₂ →
      fullPath true src₁ ≠ fullPath true src₂ ∧
      foundPath true pathlen src₁ ≠ foundPath true pathlen src₂) := by
  have hcap : fullPathSize ≤ pathlen := hpathlen
  constructor
  · intro src temp dest
    rcases sanitizeFilename_spec true temp dest src with ⟨out, hout, hholds⟩
    have hsafe := sanitizedName_safe true src
    -- Every array on the way is large enough, so all paths are this one.
    have hpath : storedPath (sanitizedName true src)
        = ascii "build/saves/" ++ sanitizedName true src := by
      rw [storedPath, List.append_cons]
      rfl
    refine ⟨out, sanitizedName true src, hout, hholds,
      List.length_pos_iff.mpr hsafe.nonempty, hsafe.length_le, hsafe.valid, hsafe.noDotdot,
      hsafe.head, ?_, ?_, ?_, ?_⟩
    · rw [fullPath_eq, hpath]
    · rw [foundPath_eq true hcap, hpath]
    · rw [foundPath_eq true hcap, contextPath_eq, hpath]
    · rw [← hpath]
      exact resolve_storedPath hsafe
  · intro src₁ src₂ hne
    rw [safeName_eq, safeName_eq] at hne
    rw [fullPath_eq, fullPath_eq, foundPath_eq true hcap, foundPath_eq true hcap]
    exact ⟨fun h => hne (storedPath_injective h), fun h => hne (storedPath_injective h)⟩

/-- A traversal attempt against CivetWeb's own path buffer. -/
theorem saved_path_contained_traversal :
    268 ≤ 512 ∧ ∃ out name,
      sanitizeFilename true (uninit _) (uninit (maxFilename + 1)) (maxFilename + 1)
        (some ⟨ascii "../etc/passwd", by decide⟩) = some out ∧ HoldsAt out 0 name ∧
      resolve (ascii "build/saves/" ++ name) = resolve saveDir ++ [name] := by
  refine ⟨by decide, ?_⟩
  rcases (saved_path_contained 512 (by decide)).1 (some ⟨ascii "../etc/passwd", by decide⟩)
    (uninit _) (uninit _) with ⟨out, name, hout, hholds, _, _, _, _, _, _, _, _, hres⟩
  exact ⟨out, name, hout, hholds, hres⟩

end Server

end SendingSystem
