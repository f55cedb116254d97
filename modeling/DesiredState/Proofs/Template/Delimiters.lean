import DesiredState.Api.Client
import DesiredState.Proofs.Template

/-!
# Values add no delimiters

The characters that structure a URI are those of its template: what is filled in for a placeholder
can take some of them away, with the placeholder, but never adds one. So a path begins with a slash,
and a client joins it to its base address, whatever the model and the API have put into the fields
(`path_keeps_to_template`).

**Malformed templates too.** Nothing is asked of the template here. Braces may stay open or stand
inside each other, and names of fields may be any text. A pass takes whole stretches of a text out,
each from an opening brace to a closing one or an occurrence of a name in braces, and puts text
without delimiters in their place; that is all there is to each of the passes.
-/

set_option autoImplicit false

namespace DesiredState

namespace Template

/-! ## Delimiters -/

/-- The character is neither one of encoded text nor a brace. -/
def isDelimiter (character : Char) : Bool :=
  !(Text.Percent.isUnreserved character || ['%', '\x7b', '\x7d'].contains character)

/-- The delimiters of a text, in their order. -/
def delimiters (text : List Char) : List Char := text.filter isDelimiter

@[simp] theorem delimiters_nil : delimiters [] = [] := rfl

@[simp] theorem delimiters_append (first second : List Char) :
    delimiters (first ++ second) = delimiters first ++ delimiters second :=
  List.filter_append ..

@[simp] theorem delimiters_open (rest : List Char) :
    delimiters ('\x7b' :: rest) = delimiters rest :=
  List.filter_cons_of_neg (by decide)

@[simp] theorem delimiters_close (rest : List Char) :
    delimiters ('\x7d' :: rest) = delimiters rest :=
  List.filter_cons_of_neg (by decide)

@[simp] theorem delimiters_placeholder (content : List Char) :
    delimiters (placeholder content) = delimiters content := by
  simp [placeholder]

/-- One character more in front is one delimiter more in front, or none. -/
theorem delimiters_cons_sublist {first second : List Char} (character : Char)
    (fewer : (delimiters first).Sublist (delimiters second)) :
    (delimiters (character :: first)).Sublist (delimiters (character :: second)) := by
  have parted : ∀ rest,
      delimiters (character :: rest) = delimiters [character] ++ delimiters rest :=
    delimiters_append [character]
  rw [parted first, parted second]
  exact fewer.append_left _

theorem delimiters_encode (text : String) :
    delimiters (Text.Percent.encode text).toList = [] := by
  refine List.filter_eq_nil_iff.mpr fun character member => ?_
  rcases Text.Percent.mem_encode member with unreserved | rfl
  · simp [isDelimiter, unreserved]
  · decide

/-- What is put in for a value has no delimiters. -/
theorem delimiters_render {value : Json} {shown : List Char}
    (rendered : render? value = some shown) : delimiters shown = [] := by
  obtain ⟨text, _, rfl⟩ := Option.map_eq_some_iff.mp rendered
  exact delimiters_encode text

theorem delimiters_ancestorValue {type : List Char} {fields : NameMap Json}
    {content shown : List Char} (known : ancestorValue? type fields content = some shown) :
    delimiters shown = [] := by
  unfold ancestorValue? at known
  split at known
  · cases known
  · split at known
    · obtain ⟨value, _, rendered⟩ := Option.bind_eq_some_iff.mp known
      exact delimiters_render rendered
    · cases known

/-! ## One pass -/

/-- Filling in placeholders adds no delimiters if nothing that is put in has any. -/
theorem delimiters_fillPlaceholders {value? : List Char → Option (List Char)}
    (bare : ∀ content shown, value? content = some shown → delimiters shown = [])
    (text : List Char) :
    (delimiters (fillPlaceholders value? text)).Sublist (delimiters text) := by
  fun_induction placeholders text with
  | case1 => rw [fillPlaceholders]
  | case2 rest unclosed => rw [fillPlaceholders_unclosed unclosed]
  | case3 rest brace after closed ih =>
      rw [fillPlaceholders_closed closed]
      obtain ⟨_, _, whole⟩ := dropWhile_eq_cons closed
      -- the placeholder had the delimiters of its content, and it has them still if it stays
      have stood : delimiters ('\x7b' :: rest)
          = delimiters (rest.takeWhile (· != '\x7d')) ++ delimiters after := by
        rw [whole, delimiters_open, delimiters_append, delimiters_close, ← whole]
      rw [stood, delimiters_append]
      refine List.Sublist.append ?_ ih
      cases known : value? (rest.takeWhile (· != '\x7d')) with
      | none => rw [Option.getD_none, delimiters_placeholder]
      | some shown =>
          rw [Option.getD_some, bare _ _ known]
          exact List.nil_sublist _
  | case4 character rest plain ih =>
      rw [fillPlaceholders_cons plain]
      exact delimiters_cons_sublist character ih

/-- Replacing a text by one without delimiters adds none, whatever is replaced. -/
theorem delimiters_replaceAll {pattern shown : List Char} (bare : delimiters shown = [])
    (text : List Char) :
    (delimiters (replaceAll pattern shown text)).Sublist (delimiters text) := by
  fun_induction replaceAll pattern shown text with
  | case1 => exact List.Sublist.refl _
  | case2 character rest matched ih =>
      rw [delimiters_append, bare, List.nil_append]
      exact ih.trans ((List.drop_sublist _ _).filter _)
  | case3 character rest _ ih => exact delimiters_cons_sublist character ih

theorem delimiters_fillField (text : List Char) (field : String × Json) :
    (delimiters (fillField text field)).Sublist (delimiters text) := by
  unfold fillField
  split
  · rename_i shown rendered
    exact delimiters_replaceAll (delimiters_render rendered) text
  · exact List.Sublist.refl _

theorem delimiters_fillUuid (entity : Entity) (text : List Char) :
    (delimiters (fillUuid entity text)).Sublist (delimiters text) := by
  unfold fillUuid
  split
  · rename_i shown named
    obtain ⟨value, _, rendered⟩ := Option.bind_eq_some_iff.mp named
    exact delimiters_replaceAll (delimiters_render rendered) text
  · exact List.Sublist.refl _

/-! ## All passes -/

/-- If no pass adds a delimiter, all of them together add none. -/
theorem delimiters_foldl {Entry : Type} {pass : List Char → Entry → List Char}
    (each : ∀ text entry, (delimiters (pass text entry)).Sublist (delimiters text)) :
    ∀ (entries : List Entry) (text : List Char),
      (delimiters (entries.foldl pass text)).Sublist (delimiters text)
  | [], _ => List.Sublist.refl _
  | entry :: entries, text =>
      (delimiters_foldl each entries (pass text entry)).trans (each text entry)

/-- **A filled template has no delimiters but its own.** -/
theorem delimiters_fill (lineage : Lineage) (entity : Entity) (template : String) :
    (delimiters (fill lineage entity template)).Sublist (delimiters template.toList) := by
  have ancestors : (delimiters (fillAncestors lineage template.toList)).Sublist
      (delimiters template.toList) :=
    delimiters_foldl (fun text _ =>
      delimiters_fillPlaceholders (fun _ _ => delimiters_ancestorValue) text) _ _
  have fields := delimiters_foldl delimiters_fillField entity.fields.entries
    (fillAncestors lineage template.toList)
  exact (delimiters_fillUuid entity _).trans (fields.trans ancestors)

/-- A path is a text that was filled in completely, with a slash put in front if it has none. -/
theorem path_of_resolve {lineage : Lineage} {entity : Entity} {template uri : String}
    (resolved : resolve lineage entity template = .path uri) :
    '\x7b' ∉ fill lineage entity template ∧ uri.toList = rooted (fill lineage entity template) := by
  simp only [resolve] at resolved
  split at resolved
  · cases resolved
  · split at resolved
    · cases resolved
    · rename_i closed
      cases resolved
      exact ⟨fun member => closed (List.contains_iff_mem.mpr member), String.toList_ofList⟩

end Template

/-! ## Addresses -/

namespace Client

/-- The base address without the slash at its end. -/
def root (client : Client) : String :=
  if client.baseUrl.toList.getLast? = some '/' then String.ofList client.baseUrl.toList.dropLast
  else client.baseUrl

/-- A path is no address of its own. -/
theorem isHttp_rooted {path : String} {rest : List Char} (begins : path.toList = '/' :: rest) :
    Connection.isHttp path = false := by
  rw [Connection.isHttp, begins]
  rfl

/-- **The address of a path** is the base address, without the slash at its end, and the path. -/
theorem url_rooted (client : Client) {path : String} {rest : List Char}
    (begins : path.toList = '/' :: rest) : client.url path = client.root ++ path := by
  rw [url, isHttp_rooted begins, if_neg Bool.false_ne_true, root]
  simp only [begins]
  split
  · rename_i ends
    -- the slash that is dropped from the base is the one the path begins with
    obtain ⟨before, whole⟩ := List.getLast?_eq_some_iff.mp ends
    apply String.toList_injective
    simp [begins, whole]
  · rfl

end Client

namespace Template

/-- **Values keep to their place.** Whatever the template and the fields are: a path begins with a
slash and has no opening brace; its delimiters, without a slash that was put in front, are some of
those of the template, in their order; and its address is below the base address of the client. -/
theorem path_keeps_to_template {lineage : Lineage} {entity : Entity} {template uri : String}
    (resolved : resolve lineage entity template = .path uri) :
    uri.toList.head? = some '/' ∧ '\x7b' ∉ uri.toList ∧
      (∃ text, (uri.toList = text ∨ uri.toList = '/' :: text) ∧
        (delimiters text).Sublist (delimiters template.toList) ∧
        ∀ character, isDelimiter character = true →
          text.count character ≤ template.toList.count character) ∧
      Connection.isHttp uri = false ∧ ∀ client : Client, client.url uri = client.root ++ uri := by
  obtain ⟨closed, whole⟩ := path_of_resolve resolved
  have fewer := delimiters_fill lineage entity template
  generalize fill lineage entity template = text at closed whole fewer
  have counts : ∀ character, isDelimiter character = true →
      text.count character ≤ template.toList.count character := by
    intro character delimits
    rw [← List.count_filter delimits, ← List.count_filter (l := template.toList) delimits]
    exact fewer.count_le character
  have begins : ∃ rest, uri.toList = '/' :: rest := by
    rcases rooted_eq text with ⟨same, slash⟩ | added
    · obtain ⟨rest, rfl⟩ := List.head?_eq_some_iff.mp slash
      exact ⟨rest, whole.trans same⟩
    · exact ⟨text, whole.trans added⟩
  obtain ⟨rest, begins⟩ := begins
  refine ⟨by rw [begins]; rfl, ?_, ⟨text, ?_, fewer, counts⟩, Client.isHttp_rooted begins,
    fun client => client.url_rooted begins⟩
  · rcases rooted_eq text with ⟨same, _⟩ | added
    · rwa [whole, same]
    · rw [whole, added]
      simp [closed]
  · rcases rooted_eq text with ⟨same, _⟩ | added
    · exact .inl (whole.trans same)
    · exact .inr (whole.trans added)

/-! ## A hostile gauge -/

namespace Sample

/-- A site whose code looks like an address. -/
def distantSite : Lineage :=
  ⟨[("Site", .ofRemote (.object [("code", .string "http://n/?q#")]) "Site")]⟩

/-- A gauge with a name that climbs and a field whose name has braces. -/
def gauge : Entity :=
  .ofRemote (.object [("a\x7bb\x7d", .string "=&"), ("name", .string "../x")]) "Gauge"

/-- A template with a brace inside another one. -/
def gaugePath : String := "\x7bSite.code\x7d/\x7ba\x7bb\x7d\x7d/\x7bname\x7d?v=1"

/-- The path of the gauge has the two slashes, the question mark and the equals sign of its
template, and a slash in front. -/
def gaugeUri : String := "/http%3A%2F%2Fn%2F%3Fq%23/%3D%26/..%2Fx?v=1"

theorem gauge_resolved : resolve distantSite gauge gaugePath = .path gaugeUri := by
  decide +kernel

/-- What the code of the site and the fields of the gauge say does not change where it is found. -/
theorem gauge_keeps_to_template :
    resolve distantSite gauge gaugePath = .path gaugeUri ∧
      (∃ text, (gaugeUri.toList = text ∨ gaugeUri.toList = '/' :: text) ∧
        (delimiters text).Sublist "//?=".toList) ∧
      ∀ client : Client, client.url gaugeUri = client.root ++ gaugeUri := by
  obtain ⟨_, _, ⟨text, added, fewer, _⟩, _, address⟩ := path_keeps_to_template gauge_resolved
  have own : delimiters gaugePath.toList = "//?=".toList := by decide +kernel
  rw [own] at fewer
  exact ⟨gauge_resolved, ⟨text, added, fewer⟩, address⟩

end Sample

end Template

end DesiredState
