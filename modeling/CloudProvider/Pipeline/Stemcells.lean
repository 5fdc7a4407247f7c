import CloudProvider.Archive.Stemcell
import CloudProvider.Pipeline.Step

/-! Pipelines on disk images, which callers know as stemcells. -/

namespace CloudProvider.Pipeline

def unpackedImage (path : String) : Except Files.Fault Bytes → Except ActionError Bytes
  | .error fault => .error (.io (.file fault))
  | .ok bytes =>
    match Archive.Stemcell.image? (.ofBytes bytes) with
    | .error fault => .error (.io (.archive fault))
    | .ok none => .error (.invalidArgument (.noImage path))
    | .ok (some image) => .ok image

def createStemcell (s : Settings) (path : String) : Pipeline ImageId :=
  withScratch "stemcell" fun _ directory => do
    let file := directory ++ "/" ++ Archive.Stemcell.imageName
    match unpackedImage path (← perform (.readFile path)) with
    | .error e => fail e
    | .ok image =>
      orFault (← perform (.writeFile file image))
      emit (.info "extracted stemcell image" [("stemcell", .text path)])
      let contents ← perform (.readFile file)
      make s "upload image" "an image id" .image
        (.createImage ⟨file, contents⟩ Archive.Stemcell.imageName)

def deleteStemcell (s : Settings) (image : ImageId) : Pipeline Unit :=
  change s "delete image" (.deleteImage image)

end CloudProvider.Pipeline
