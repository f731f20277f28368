-- The texts of the programs of the graphics device, and how they are compiled. What is wrong with
-- a text is for the device to say.
import PictureInPicture.Notice

namespace PictureInPicture

/-! ## The texts -/

namespace Program

def versionLine : String := "#version 450"

/-- The place in the texture that belongs to a pixel, as a fragment program is given it. -/
def placeLine : String := "layout(location = 0) in vec2 v_uv;"

/-- The color of a pixel, as a fragment program gives it. -/
def colorLine : String := "layout(location = 0) out vec4 out_color;"

/-- The values that are the same for all pixels of a draw. -/
def layerLines : List String :=
  ["layout(set = 0, binding = 0) uniform LayerParams \x7b",
    "    vec4 color;",
    "    vec4 params;",
    "\x7d layer;"]

def samplerLine : String := "layout(set = 1, binding = 0) uniform sampler source_sampler;"

/-- The lines of a program. The vertices are in device coordinates. A packed color is taken without
its own opacity, and the values of three planes are made into a color as `rgbOfYuv` makes them. -/
def lines : Program → List String
  | quadVertex =>
    [versionLine,
      "layout(location = 0) in vec2 a_position;",
      "layout(location = 1) in vec2 a_uv;",
      "layout(location = 0) out vec2 v_uv;",
      "",
      "void main() \x7b",
      "    v_uv = a_uv;",
      "    gl_Position = vec4(a_position, 0.0, 1.0);",
      "\x7d"]
  | packedFragment =>
    [versionLine, placeLine, colorLine, ""] ++ layerLines ++
      [samplerLine,
        "layout(set = 1, binding = 1) uniform texture2D packed_texture;",
        "",
        "void main() \x7b",
        "    vec3 rgb = texture(sampler2D(packed_texture, source_sampler), v_uv).rgb;",
        "    out_color = vec4(rgb, layer.params.x);",
        "\x7d"]
  | planarFragment =>
    [versionLine, placeLine, colorLine, ""] ++ layerLines ++
      [samplerLine,
        "layout(set = 1, binding = 1) uniform texture2D y_plane;",
        "layout(set = 1, binding = 2) uniform texture2D u_plane;",
        "layout(set = 1, binding = 3) uniform texture2D v_plane;",
        "",
        "void main() \x7b",
        "    float y = texture(sampler2D(y_plane, source_sampler), v_uv).r;",
        "    float u = texture(sampler2D(u_plane, source_sampler), v_uv).r - 0.5;",
        "    float v = texture(sampler2D(v_plane, source_sampler), v_uv).r - 0.5;",
        "    vec3 rgb = vec3(",
        "        y + 1.402 * v,",
        "        y - 0.344136 * u - 0.714136 * v,",
        "        y + 1.772 * u",
        "    );",
        "    out_color = vec4(clamp(rgb, 0.0, 1.0), layer.params.x);",
        "\x7d"]
  | solidFragment =>
    [versionLine, colorLine, ""] ++ layerLines ++
      ["",
        "void main() \x7b",
        "    out_color = layer.color;",
        "\x7d"]

/-- The text of a program. -/
def source (p : Program) : String := String.join (p.lines.map (· ++ "\n"))

end Program

namespace Gpu

/-! ## Compiling -/

/-- What a device finds wrong with a text for a program. -/
abbrev Compiler := Program → String → Option String

/-- Compiles a text under the name of a program. -/
def compile (check : Compiler) (program : Program) (text : String) :
    List Notice × Except Fault Unit :=
  match check program text with
  | some report => ([], .error (.shaderCompilation program.name report))
  | none => ([.programCompiled program], .ok ())

/-- Compiles programs one after the other, up to the first that is refused. -/
def compileAll (check : Compiler) : List Program → List Notice × Except Fault Unit
  | [] => ([], .ok ())
  | program :: programs =>
    match compile check program program.source with
    | (notices, .error fault) => (notices, .error fault)
    | (notices, .ok ()) =>
      let (more, result) := compileAll check programs
      (notices ++ more, result)

/-- The programs are compiled first. Then the pipelines are made, which takes a format that
can be drawn to. -/
def compilePipelines (check : Compiler) (format : TextureFormat) :
    List Notice × Except Fault Unit :=
  match compileAll check Program.all with
  | (notices, .error fault) => (notices, .error fault)
  | (notices, .ok ()) =>
    (notices,
      if format.isRenderable then .ok ()
      else .error (.shaderCompilation "composite pipelines" "Validation Error"))

end Gpu

end PictureInPicture
