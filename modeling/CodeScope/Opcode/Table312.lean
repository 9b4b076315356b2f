import CodeScope.Opcode

/-!
# Opcodes of version 3.12

The operations of the 3.12 interpreter with the meaning of their arguments.
-/

namespace CodeScope
namespace OpcodeTable

/-- The opcodes of version 3.12. -/
def table312 : OpcodeTable where
  version := ⟨3, 12⟩
  opcodes := [
    ⟨0, "CACHE", .plain⟩,
    ⟨1, "POP_TOP", .plain⟩,
    ⟨2, "PUSH_NULL", .plain⟩,
    ⟨3, "INTERPRETER_EXIT", .plain⟩,
    ⟨4, "END_FOR", .plain⟩,
    ⟨5, "END_SEND", .plain⟩,
    ⟨9, "NOP", .plain⟩,
    ⟨11, "UNARY_NEGATIVE", .plain⟩,
    ⟨12, "UNARY_NOT", .plain⟩,
    ⟨15, "UNARY_INVERT", .plain⟩,
    ⟨17, "RESERVED", .plain⟩,
    ⟨25, "BINARY_SUBSCR", .plain⟩,
    ⟨26, "BINARY_SLICE", .plain⟩,
    ⟨27, "STORE_SLICE", .plain⟩,
    ⟨30, "GET_LEN", .plain⟩,
    ⟨31, "MATCH_MAPPING", .plain⟩,
    ⟨32, "MATCH_SEQUENCE", .plain⟩,
    ⟨33, "MATCH_KEYS", .plain⟩,
    ⟨35, "PUSH_EXC_INFO", .plain⟩,
    ⟨36, "CHECK_EXC_MATCH", .plain⟩,
    ⟨37, "CHECK_EG_MATCH", .plain⟩,
    ⟨49, "WITH_EXCEPT_START", .plain⟩,
    ⟨50, "GET_AITER", .plain⟩,
    ⟨51, "GET_ANEXT", .plain⟩,
    ⟨52, "BEFORE_ASYNC_WITH", .plain⟩,
    ⟨53, "BEFORE_WITH", .plain⟩,
    ⟨54, "END_ASYNC_FOR", .plain⟩,
    ⟨55, "CLEANUP_THROW", .plain⟩,
    ⟨60, "STORE_SUBSCR", .plain⟩,
    ⟨61, "DELETE_SUBSCR", .plain⟩,
    ⟨68, "GET_ITER", .plain⟩,
    ⟨69, "GET_YIELD_FROM_ITER", .plain⟩,
    ⟨71, "LOAD_BUILD_CLASS", .plain⟩,
    ⟨74, "LOAD_ASSERTION_ERROR", .plain⟩,
    ⟨75, "RETURN_GENERATOR", .plain⟩,
    ⟨83, "RETURN_VALUE", .plain⟩,
    ⟨85, "SETUP_ANNOTATIONS", .plain⟩,
    ⟨87, "LOAD_LOCALS", .plain⟩,
    ⟨89, "POP_EXCEPT", .plain⟩,
    ⟨90, "STORE_NAME", .name⟩,
    ⟨91, "DELETE_NAME", .name⟩,
    ⟨92, "UNPACK_SEQUENCE", .plain⟩,
    ⟨93, "FOR_ITER", .relativeJump⟩,
    ⟨94, "UNPACK_EX", .plain⟩,
    ⟨95, "STORE_ATTR", .name⟩,
    ⟨96, "DELETE_ATTR", .name⟩,
    ⟨97, "STORE_GLOBAL", .name⟩,
    ⟨98, "DELETE_GLOBAL", .name⟩,
    ⟨99, "SWAP", .plain⟩,
    ⟨100, "LOAD_CONST", .const⟩,
    ⟨101, "LOAD_NAME", .name⟩,
    ⟨102, "BUILD_TUPLE", .plain⟩,
    ⟨103, "BUILD_LIST", .plain⟩,
    ⟨104, "BUILD_SET", .plain⟩,
    ⟨105, "BUILD_MAP", .plain⟩,
    ⟨106, "LOAD_ATTR", .name⟩,
    ⟨107, "COMPARE_OP", .plain⟩,
    ⟨108, "IMPORT_NAME", .name⟩,
    ⟨109, "IMPORT_FROM", .name⟩,
    ⟨110, "JUMP_FORWARD", .relativeJump⟩,
    ⟨114, "POP_JUMP_IF_FALSE", .relativeJump⟩,
    ⟨115, "POP_JUMP_IF_TRUE", .relativeJump⟩,
    ⟨116, "LOAD_GLOBAL", .name⟩,
    ⟨117, "IS_OP", .plain⟩,
    ⟨118, "CONTAINS_OP", .plain⟩,
    ⟨119, "RERAISE", .plain⟩,
    ⟨120, "COPY", .plain⟩,
    ⟨121, "RETURN_CONST", .const⟩,
    ⟨122, "BINARY_OP", .plain⟩,
    ⟨123, "SEND", .relativeJump⟩,
    ⟨124, "LOAD_FAST", .localVar⟩,
    ⟨125, "STORE_FAST", .localVar⟩,
    ⟨126, "DELETE_FAST", .localVar⟩,
    ⟨127, "LOAD_FAST_CHECK", .localVar⟩,
    ⟨128, "POP_JUMP_IF_NOT_NONE", .relativeJump⟩,
    ⟨129, "POP_JUMP_IF_NONE", .relativeJump⟩,
    ⟨130, "RAISE_VARARGS", .plain⟩,
    ⟨131, "GET_AWAITABLE", .plain⟩,
    ⟨132, "MAKE_FUNCTION", .plain⟩,
    ⟨133, "BUILD_SLICE", .plain⟩,
    ⟨134, "JUMP_BACKWARD_NO_INTERRUPT", .relativeJump⟩,
    ⟨135, "MAKE_CELL", .freeVar⟩,
    ⟨136, "LOAD_CLOSURE", .freeVar⟩,
    ⟨137, "LOAD_DEREF", .freeVar⟩,
    ⟨138, "STORE_DEREF", .freeVar⟩,
    ⟨139, "DELETE_DEREF", .freeVar⟩,
    ⟨140, "JUMP_BACKWARD", .relativeJump⟩,
    ⟨141, "LOAD_SUPER_ATTR", .name⟩,
    ⟨142, "CALL_FUNCTION_EX", .plain⟩,
    ⟨143, "LOAD_FAST_AND_CLEAR", .localVar⟩,
    ⟨144, "EXTENDED_ARG", .plain⟩,
    ⟨145, "LIST_APPEND", .plain⟩,
    ⟨146, "SET_ADD", .plain⟩,
    ⟨147, "MAP_ADD", .plain⟩,
    ⟨149, "COPY_FREE_VARS", .plain⟩,
    ⟨150, "YIELD_VALUE", .plain⟩,
    ⟨151, "RESUME", .plain⟩,
    ⟨152, "MATCH_CLASS", .plain⟩,
    ⟨155, "FORMAT_VALUE", .plain⟩,
    ⟨156, "BUILD_CONST_KEY_MAP", .plain⟩,
    ⟨157, "BUILD_STRING", .plain⟩,
    ⟨162, "LIST_EXTEND", .plain⟩,
    ⟨163, "SET_UPDATE", .plain⟩,
    ⟨164, "DICT_MERGE", .plain⟩,
    ⟨165, "DICT_UPDATE", .plain⟩,
    ⟨171, "CALL", .plain⟩,
    ⟨172, "KW_NAMES", .const⟩,
    ⟨173, "CALL_INTRINSIC_1", .plain⟩,
    ⟨174, "CALL_INTRINSIC_2", .plain⟩,
    ⟨175, "LOAD_FROM_DICT_OR_GLOBALS", .name⟩,
    ⟨176, "LOAD_FROM_DICT_OR_DEREF", .freeVar⟩,
    ⟨237, "INSTRUMENTED_LOAD_SUPER_ATTR", .name⟩,
    ⟨238, "INSTRUMENTED_POP_JUMP_IF_NONE", .plain⟩,
    ⟨239, "INSTRUMENTED_POP_JUMP_IF_NOT_NONE", .plain⟩,
    ⟨240, "INSTRUMENTED_RESUME", .plain⟩,
    ⟨241, "INSTRUMENTED_CALL", .plain⟩,
    ⟨242, "INSTRUMENTED_RETURN_VALUE", .plain⟩,
    ⟨243, "INSTRUMENTED_YIELD_VALUE", .plain⟩,
    ⟨244, "INSTRUMENTED_CALL_FUNCTION_EX", .plain⟩,
    ⟨245, "INSTRUMENTED_JUMP_FORWARD", .plain⟩,
    ⟨246, "INSTRUMENTED_JUMP_BACKWARD", .plain⟩,
    ⟨247, "INSTRUMENTED_RETURN_CONST", .const⟩,
    ⟨248, "INSTRUMENTED_FOR_ITER", .plain⟩,
    ⟨249, "INSTRUMENTED_POP_JUMP_IF_FALSE", .plain⟩,
    ⟨250, "INSTRUMENTED_POP_JUMP_IF_TRUE", .plain⟩,
    ⟨251, "INSTRUMENTED_END_FOR", .plain⟩,
    ⟨252, "INSTRUMENTED_END_SEND", .plain⟩,
    ⟨253, "INSTRUMENTED_INSTRUCTION", .plain⟩,
    ⟨254, "INSTRUMENTED_LINE", .plain⟩]

end OpcodeTable
end CodeScope
