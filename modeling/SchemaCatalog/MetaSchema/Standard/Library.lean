import SchemaCatalog.MetaSchema.Library
import SchemaCatalog.MetaSchema.Standard.Early
import SchemaCatalog.MetaSchema.Standard.Vocabularies

namespace SchemaCatalog.MetaSchema

def Standard.documents : List (Draft × Json) :=
  [(.draft4, Standard.draft4), (.draft6, Standard.draft6), (.draft7, Standard.draft7)] ++
    Standard.documents2019.map (.draft2019, ·) ++ Standard.documents2020.map (.draft2020, ·)

def Library.standard : Library :=
  Standard.documents.foldl (fun library (draft, document) =>
    match library.add? draft document with
    | some (library, _) => library
    | none => library) {}

end SchemaCatalog.MetaSchema
