import NewApi.Foundation.GoString

/-!
# Chat requests

`dto.GeneralOpenAIRequest` with the messages as a client sends them: what
`ParseContent`, `StringContent` and `ToFileSource` of `dto/openai_request.go`
make of a content.
-/

namespace NewApi.Dto.Chat

open Foundation

structure MessageImageUrl where
  url : String
  detail : String
  mimeType : String := ""
  deriving DecidableEq

structure MessageInputAudio where
  data : String
  format : String
  deriving DecidableEq

structure MessageFile where
  fileName : String := ""
  fileData : String := ""
  fileId : String := ""
  deriving DecidableEq

structure MessageVideoUrl where
  url : String
  deriving DecidableEq

inductive MediaContent where
  | text (text : String)
  | imageUrl (image : MessageImageUrl)
  | inputAudio (audio : MessageInputAudio)
  | file (file : MessageFile)
  | videoUrl (video : MessageVideoUrl)
  deriving DecidableEq

def MediaContent.text? : MediaContent → Option String
  | .text s => some s
  | _ => none

inductive ImageUrlField where
  | string (url : String)
  | object (url detail : Option String)
  | other
  deriving DecidableEq

/-- An element of a content array.  A field is absent if it is not of the type
that is expected. -/
inductive ContentItem where
  | text (text : Option String)
  | imageUrl (imageUrl : ImageUrlField)
  | inputAudio (data format : Option String)
  | file (fileId fileName fileData : Option String)
  | videoUrl (url : Option String)
  | other
  deriving DecidableEq

inductive Content where
  | null
  | text (text : String)
  | items (items : List ContentItem)
  deriving DecidableEq

structure ToolCallRequest where
  id : String
  type : String := "function"
  name : String
  arguments : String

structure Message where
  role : String
  content : Content := .null
  name : Option String := none
  toolCalls : Option (List ToolCallRequest) := none
  toolCallId : String := ""

def Message.parseToolCalls (message : Message) : List ToolCallRequest := message.toolCalls.getD []

def ImageUrlField.parse : ImageUrlField → MessageImageUrl
  | .string url => { url := url, detail := "high" }
  | .object url detail => { url := url.getD "", detail := detail.getD "high" }
  | .other => { url := "", detail := "high" }

def ContentItem.parse : ContentItem → Option MediaContent
  | .text s => s.map .text
  | .imageUrl field => some (.imageUrl field.parse)
  | .inputAudio (some data) (some format) => some (.inputAudio ⟨data, format⟩)
  | .inputAudio _ _ => none
  | .file (some fileId) _ _ => some (.file { fileId := fileId })
  | .file none (some fileName) (some fileData) =>
    some (.file { fileName := fileName, fileData := fileData })
  | .file none _ _ => none
  | .videoUrl url => url.map fun url => .videoUrl ⟨url⟩
  | .other => none

def ContentItem.stringContent : ContentItem → String
  | .text s => s.getD ""
  | _ => ""

namespace Content

def parseContent : Content → List MediaContent
  | .null => []
  | .text s => [.text s]
  | .items list => list.filterMap ContentItem.parse

def stringContent : Content → String
  | .null => ""
  | .text s => s
  | .items list => String.join (list.map ContentItem.stringContent)

end Content

inductive FileSource where
  | url (url : String)
  | base64 (base64Data mimeType : String)
  deriving DecidableEq

def newFileSourceFromData (data mimeType : String) : FileSource :=
  if hasPrefix data "http://" ∨ hasPrefix data "https://" then .url data
  else .base64 data mimeType

def fileSource (data mimeType : String) : Option FileSource :=
  if data = "" then none else some (newFileSourceFromData data mimeType)

def MediaContent.toFileSource : MediaContent → Option FileSource
  | .text _ => none
  | .imageUrl image => fileSource image.url image.mimeType
  | .inputAudio audio =>
    fileSource audio.data (if audio.format = "" then "" else "audio/" ++ audio.format)
  | .file f => fileSource f.fileData ""
  | .videoUrl video => fileSource video.url ""

end NewApi.Dto.Chat
